import CppTango.Device.ConfEvents
import CppTango.Device.RangeRuns
import CppTango.Device.StrPropsRestart

namespace CppTango.Device.Conf

open CppTango.Lib StrProps

section Joined
variable {D : Doubles}

/-- The text a start makes of the values of one property in the database. -/
def joined : List String → String
  | [] => ""
  | v::vs => vs.foldl (fun text w => text ++ "," ++ w) v

/-- What a work item leaves in the database, as the text a start makes of it. -/
def PropDba.action : PropDba D → DbAction
  | .upd v => .upd v
  | .updFromDb vs => .upd (joined (vs.map D.print))
  | .updFromVectStr vs => .upd (joined vs)
  | .del => .del

def AttPropDb.sent (a : AttPropDb D) : StrProps.AttPropDb := ⟨a.name,a.dba.action⟩

/-- `upd_database` for the work of all properties. -/
def updAttDatabase (vDb : List (AttPropDb D)) (db : List AttrProperty) : List AttrProperty :=
  updDatabase (vDb.map AttPropDb.sent) db

section Start
variable (attr : AttrDesc)

/-- The text a start finds for a property. -/
def startProp (name : String) (db : List AttrProperty) : Option String :=
  propInList name (addUserDefault (concat db attr.classProperties) attr.userDefaultProperties)

/-- The same with the library default. -/
def startText (name notSpec : String) (db : List AttrProperty) : String := (startProp attr name db).getD notSpec

/-- What a start finds without a property of the device. -/
def defaultProp (name : String) : Option String :=
  (propInList name attr.classProperties).or (propInList name attr.userDefaultProperties)

end Start

section Lookup
variable {attr : AttrDesc} {name : String} {db : List AttrProperty}

theorem startProp_eq : startProp attr name db = (propInList name db).or (defaultProp attr name) := by
  unfold startProp defaultProp
  rw [← Option.or_assoc]
  unfold propInList addUserDefault concat
  rw [atKey_addMissing,atKey_overlay,Option.map_or,Option.map_or]

/-- What a start finds after an update of the database. -/
theorem startProp_upd {vDb : List (AttPropDb D)} (hn : (vDb.map AttPropDb.name).Nodup) :
    startProp attr name (updAttDatabase vDb db) =
      match actionOf name (vDb.map AttPropDb.sent) with
      | some (.upd v) => some v
      | some .del => defaultProp attr name
      | none => startProp attr name db := by
  have hs : ((vDb.map AttPropDb.sent).map StrProps.AttPropDb.name).Nodup := by
    rw [List.map_map]
    exact hn
  unfold updAttDatabase
  rw [startProp_eq,propInList_updDatabase _ _ _ hs]
  cases actionOf name (vDb.map AttPropDb.sent) with
  | none => exact startProp_eq.symm
  | some a => cases a <;> rfl

/-- What a start finds after the work of one property. -/
theorem startProp_one {dba : PropDba D} {other : String} :
    startProp attr name (updAttDatabase [⟨other,dba⟩] db) =
      if name = other then
        match dba.action with
        | .upd v => some v
        | .del => defaultProp attr name
      else startProp attr name db := by
  have hn : ([⟨other,dba⟩] : List (AttPropDb D)).map AttPropDb.name |>.Nodup := List.nodup_singleton _
  have ha : actionOf name [AttPropDb.sent (D := D) ⟨other,dba⟩] = if other = name then some dba.action else none := by
    rw [actionOf_cons]
    rfl
  rw [startProp_upd hn,List.map_singleton,ha]
  by_cases h : name = other
  · rw [if_pos h.symm,if_pos h]
    cases dba.action <;> rfl
  · rw [if_neg (Ne.symm h),if_neg h]

end Lookup

section Keywords
variable {conf : String}

/-- The keywords exclude each other. -/
theorem notSpecified_excludes (h : sameNoCase conf "Not specified") : ¬ sameNoCase conf "NaN" ∧ conf ≠ "" := by
  refine ⟨fun hn => ?_,?_⟩
  · exact absurd (h.symm.trans hn) (by decide)
  · rintro rfl
    exact absurd h (by decide)

theorem nan_excludes (h : sameNoCase conf "NaN") :
    ¬ sameNoCase conf "Not specified" ∧ conf ≠ "" ∧ ¬ sameNoCase conf "0" ∧ ¬ sameNoCase conf "0.0" := by
  refine ⟨fun hn => absurd (h.symm.trans hn) (by decide),?_,fun hn => absurd (h.symm.trans hn) (by decide),
    fun hn => absurd (h.symm.trans hn) (by decide)⟩
  rintro rfl
  exact absurd h (by decide)

end Keywords

end Joined

section Restart
variable {D : Doubles}

section Startup
variable (attr : AttrDesc) (db : List AttrProperty)

/-- `delta_t` at a start, when it is defined: `get_lg_attr_value` reads a long. -/
def initDeltaT : Option Int :=
  let text := startText attr "delta_t" "0" db
  if text = "0" ∨ noNumber attr.dataType then none
  else (readSignedEnd 64 text).filter (fun n => n ≠ 0)

variable (D) in
/-- `delta_val` at a start, when it is defined. -/
def initDeltaVal : Option (CheckVal D) :=
  let text := startText attr "delta_val" "Not specified" db
  if text = "Not specified" then none else initCheckValProp D attr.dataType text

variable (D) in
/-- The alarm a start sets up: `delta_val` and `delta_t`, when its flag is set. -/
def initRds : Option (CheckVal D × Int) :=
  match initDeltaVal D attr db,initDeltaT attr db with
  | some v,some t => some (v,t)
  | _,_ => none

end Startup

section Requests
variable (attr : AttrDesc)

/-- The alarm in memory and the properties of the attribute in the database. -/
structure RdsState (D : Doubles) where
  rds : RdsConf D
  db : List AttrProperty

/-- A request, then `upd_database`. -/
def changeRds (s : RdsState D) (conf : RdsTexts) : Option (RdsState D) :=
  match setRdsProp attr conf s.rds with
  | (_,.error _) => none
  | (r,.ok vDb) => some ⟨r,updAttDatabase vDb s.db⟩

def changeRdsStep (s : RdsState D) (conf : RdsTexts) : RdsState D := (changeRds attr s conf).getD s

/-- The alarm in memory is the one a start sets up. -/
def RdsMirrored (s : RdsState D) : Prop :=
  s.rds.rds = (initRds D attr s.db).isSome ∧
    ∀ v t, initRds D attr s.db = some (v,t) → s.rds.deltaVal = v ∧ s.rds.deltaT = t

/-- The `delta_val` a text asks for. -/
def askedVal (conf : String) : Option Int :=
  numeral (chooseRds attr "delta_val" "Not specified" conf (sameNoCase conf "Not specified")).1

/-- The `delta_t` a text asks for; a 0 spelled otherwise than "0" is a number. -/
def askedT (conf : String) : Option Int :=
  let text := (chooseRds attr "delta_t" "0" conf
    (sameNoCase conf "Not specified" ∨ sameNoCase conf "0" ∨ sameNoCase conf "0.0")).1
  if text = "0" then none else numeral text

/-- The text for `delta_t` is the one of the class default of `delta_val`, and there is a class
default of `delta_t`, which is taken then. -/
def takenForDefault (conf : String) : Option Int :=
  if conf = (propInList "delta_val" attr.classProperties).getD "" then
    (propInList "delta_t" attr.classProperties).bind numeral
  else none

/-- The `delta_t` the database work is about. -/
def storedT (conf : String) : Int := (takenForDefault attr conf).getD ((askedT attr conf).getD 0)

/-- The request changes one of the two numbers in memory. -/
def changesRds (s : RdsState D) (conf : RdsTexts) : Prop :=
  s.rds.deltaT ≠ (askedT attr conf.deltaT).getD 0 ∨
    s.rds.deltaVal.differs (((askedVal attr conf.deltaVal).map .int).getD s.rds.deltaVal) = true

instance (s : RdsState D) (conf : RdsTexts) : Decidable (changesRds attr s conf) :=
  inferInstanceAs (Decidable (_ ∨ _))

/-- The request sets what the database gets: both numbers or neither of them, with the same
`delta_t`. One that writes nothing leaves the flag as it was. -/
def KeepsRds (s : RdsState D) (conf : RdsTexts) : Prop :=
  if changesRds attr s conf ∧ ((askedVal attr conf.deltaVal).isSome ↔ storedT attr conf.deltaT ≠ 0) then
    (askedVal attr conf.deltaVal).isSome → askedT attr conf.deltaT = some (storedT attr conf.deltaT)
  else
    (s.rds.rds = ((askedVal attr conf.deltaVal).isSome && (askedT attr conf.deltaT).isSome)) ∧
      ¬ ((askedVal attr conf.deltaVal).isSome ∧ askedT attr conf.deltaT = some 0)

instance (s : RdsState D) (conf : RdsTexts) : Decidable (KeepsRds attr s conf) :=
  inferInstanceAs (Decidable (ite _ _ _))

end Requests

section Startup
variable (attr : AttrDesc) (db : List AttrProperty)

variable (D) in
/-- The thresholds `init_event_prop` takes from a text: where it asks for the user default, and there
is one that can be read, the one of the user default. -/
def startBounds (p : ChangeProp) (text : String) : D.Dbl × D.Dbl :=
  match validateChangeProperties D attr p.name text with
  | .error _ => (D.ofInt intMax,D.ofInt intMax)
  | .ok v =>
    if v.bringUsrDef.1 || v.bringUsrDef.2 then
      match validateDefault D attr p.name attr.userDefaultProperties with
      | .ok (some usr) =>
        (if v.bringUsrDef.1 then usr.1 else v.prop.1,if v.bringUsrDef.2 then usr.2 else v.prop.2)
      | .ok none | .error _ => v.prop
    else v.prop

variable (D) in
/-- A change property at a start: `INT_MAX` twice when it is not defined or refused. -/
def initChange (p : ChangeProp) : D.Dbl × D.Dbl :=
  match startProp attr p.name db with
  | none => (D.ofInt intMax,D.ofInt intMax)
  | some text =>
    if noNumber attr.dataType then (D.ofInt intMax,D.ofInt intMax) else startBounds D attr p text

/-- A period at a start. -/
def initPeriod (p : PeriodProp) : Int32 :=
  match (startProp attr p.name db).bind (readSignedEnd 32) with
  | some n => if 0 < n then Int32.ofInt n else p.default
  | none => p.default

variable (D) in
/-- A bound at a start: a maximum is refused when it is not above the minimum set before it. -/
def startRange (p : RangeProp) : RangeConf D :=
  let v := restartVal D attr p db
  let refused := !p.isMin && (restartVal D attr p.opposite db).any (fun lo => v.any (fun hi => lo.atLeast hi))
  ⟨restartText attr p db,v.getD (.int 0),v.isSome && !refused⟩

variable (D) in
def startRds : RdsConf D where
  deltaValStr := startText attr "delta_val" "Not specified" db
  deltaVal := (initDeltaVal D attr db).getD (.int 0)
  deltaTStr := startText attr "delta_t" "0" db
  deltaT := (initDeltaT attr db).getD 0
  rds := (initRds D attr db).isSome

variable (D) in
/-- The attribute as a start makes it from the database. -/
def startState : AttrState D where
  str p := startText attr p.name (notSpec attr.toAttr p) db
  range := startRange D attr db
  rds := startRds D attr db
  change := initChange D attr db
  period := initPeriod attr db

end Startup

section Access

/-- A request to the database that fails; it may have been carried out. -/
structure Failure where
  error : DevErrorList
  carriedOut : Bool

/-- `put_device_attribute_property` or `delete_device_attribute_property`: the content before and the
one it asks for. -/
def request (fails : Option Failure) (db new : List AttrProperty) : List AttrProperty × Option DevErrorList :=
  match fails with
  | none => (new,none)
  | some f => (if f.carriedOut then new else db,some f.error)

/-- How the database answers to the two requests of an update. -/
structure Answers where
  put : Option Failure
  delete : Option Failure

def updates (a : StrProps.AttPropDb) : Bool :=
  match a.dba with
  | .upd _ => true
  | .del => false

/-- `db_access`: a request that is about no property is not made, and the second one only when the
first has succeeded. -/
def dbAccess (answers : Answers) (vDb : List StrProps.AttPropDb) (db : List AttrProperty) :
    List AttrProperty × Option DevErrorList :=
  match if vDb.any updates then request answers.put db (vDb.foldl updateOne db) else (db,none) with
  | (db1,some e) => (db1,some e)
  | (db1,none) => if vDb.all updates then (db1,none) else request answers.delete db1 (vDb.foldl deleteOne db1)

variable (attr : AttrDesc)

/-- The attribute in memory and its properties in the database. -/
structure StoredState (D : Doubles) where
  mem : AttrState D
  db : List AttrProperty

/-- What a call finds: the memorized side, what lies on the stack in its three passes over the
properties, and the answers to the update and to the one that puts the old values back. -/
structure StoredCall (D : Doubles) where
  mem : Memorized D
  stack : RangeProp → D.Dbl × D.Dbl
  stackDb : RangeProp → D.Dbl × D.Dbl
  stackBack : RangeProp → D.Dbl × D.Dbl
  update : Answers
  back : Answers

/-- The outermost handler. -/
def backInMemory (c : StoredCall D) (old : AttributeConfig) (s : StoredState D) (e : DevErrorList) :
    StoredState D × Option DevErrorList :=
  let r := setProperties attr c.mem c.stackBack old s.mem
  (⟨r.1,s.db⟩,some (match r.2 with
    | .error e' => e'
    | .ok _ => e))

/-- The handler of a failed update. -/
def putBack (c : StoredCall D) (old : AttributeConfig) (s : StoredState D) (e : DevErrorList) :
    StoredState D × DevErrorList :=
  match setProperties attr c.mem c.stackDb old s.mem with
  | (m,.error _) => (⟨m,s.db⟩,corruptedDatabase attr)
  | (m,.ok vDb) =>
    match dbAccess c.back (vDb.map AttPropDb.sent) s.db with
    | (db,some _) => (⟨m,db⟩,corruptedDatabase attr)
    | (db,none) => (⟨m,db⟩,e)

/-- `set_upd_properties` with the database. -/
def setUpdStored (c : StoredCall D) (conf : AttributeConfig) (s : StoredState D) :
    StoredState D × Option DevErrorList :=
  let old := getProperties attr s.mem
  match setProperties attr c.mem c.stack conf s.mem with
  | (m,.error e) => backInMemory attr c old ⟨m,s.db⟩ e
  | (m,.ok vDb) =>
    match checkRangeCoherency attr m (s.mem.range .minValue).checkIt (s.mem.range .maxValue).checkIt with
    | some e => backInMemory attr c old ⟨m,s.db⟩ e
    | none =>
      match dbAccess c.update (vDb.map AttPropDb.sent) s.db with
      | (db,none) => (⟨m,db⟩,none)
      | (db,some e) =>
        let r := putBack attr c old ⟨m,db⟩ e
        backInMemory attr c old r.1 r.2

end Access

section Requests
variable (attr : AttrDesc)

/-- The event criteria in memory and the properties of the attribute in the database. -/
structure EventState (D : Doubles) where
  change : ChangeProp → D.Dbl × D.Dbl
  period : PeriodProp → Int32
  db : List AttrProperty

/-- The part of a request that is about one property. -/
inductive EventConf
  | change (p : ChangeProp) (conf : String)
  | period (p : PeriodProp) (conf : String)

/-- One property of a request, then `upd_database`. -/
def changeEvent (s : EventState D) : EventConf → Option (EventState D)
  | .change p conf =>
    match setOneEventProp attr p conf (s.change p) with
    | (_,.error _) => none
    | (v,.ok vDb) => some ⟨Function.update s.change p v,s.period,updAttDatabase vDb s.db⟩
  | .period p conf =>
    match setOneEventPeriod D attr p conf (s.period p) with
    | (_,.error _) => none
    | (n,.ok vDb) => some ⟨s.change,Function.update s.period p n,updAttDatabase vDb s.db⟩

def changeEventStep (s : EventState D) (c : EventConf) : EventState D := (changeEvent attr s c).getD s

end Requests

section Integers
variable (attr : AttrDesc)

/-- The number a part of a change property stands for. -/
def partNumber (part : String) : Option Int := (numeral part).filter (fun n => n ≠ 0 ∧ n ≠ intMax)

def partLow (part : String) : Int := ((partNumber part).map (fun n => -(n.natAbs : Int))).getD intMax

def partHigh (part : String) : Int := ((partNumber part).map (fun n => (n.natAbs : Int))).getD intMax

/-- The two thresholds of a text, `intMax` where there is none. -/
def textBounds (text : String) : Int × Int :=
  (partLow (splitComma text).1,partHigh ((splitComma text).2.getD (splitComma text).1))

def defaultBounds (p : ChangeProp) (defaults : List AttrProperty) : Option (Int × Int) :=
  (propInList p.name defaults).map textBounds

/-- One threshold a request asks for. -/
def askedPart (cls usr : Option Int) (part : String) (number : Int) : Int :=
  if sameNoCase part "NaN" then (cls.or usr).getD intMax
  else if part = "" then usr.getD intMax
  else number

def askedBounds (p : ChangeProp) (conf : String) : Int × Int :=
  let c := splitComma conf
  let cls := defaultBounds p attr.classProperties
  let usr := defaultBounds p attr.userDefaultProperties
  (askedPart (cls.map Prod.fst) (usr.map Prod.fst) c.1 (partLow c.1),
    askedPart (cls.map Prod.snd) (usr.map Prod.snd) (c.2.getD c.1) (partHigh (c.2.getD c.1)))

/-- A start reads the mark "NaN" for a threshold that is the one of a default as that threshold:
for the first it takes the user default, for the second none. -/
def MarkRead (cls usr : Option (Int × Int)) (b : Int × Int) : Prop :=
  match cls,usr with
  | some c,usr =>
    (b.1 = c.1 ∧ b.2 ≠ c.2 → c.1 = (usr.map Prod.fst).getD intMax) ∧ (b.1 ≠ c.1 ∧ b.2 = c.2 → c.2 = intMax)
  | none,some u => b.1 ≠ u.1 ∧ b.2 = u.2 → u.2 = intMax
  | none,none => True

/-- The period a request asks for. -/
def askedPeriod (p : PeriodProp) (conf : String) : Option Int :=
  let user := propInList p.name attr.userDefaultProperties
  let number (dflt : Option String) : Option Int :=
    match dflt with
    | none => some p.default.toInt
    | some d => numeral d
  if p.isLibrary conf then some p.default.toInt
  else if sameNoCase conf "NaN" then number ((propInList p.name attr.classProperties).or user)
  else if conf = "" then number user
  else numeral conf

/-- What is stored is what is set: the thresholds do not change, or there are none, or no mark
stands for another one; the period is a positive number of an `int`. -/
def KeepsEvent (s : EventState D) : EventConf → Prop
  | .change p conf =>
    let b := askedBounds attr p conf
    (D.eq (s.change p).1 (D.ofInt b.1) = true ∧ D.eq (s.change p).2 (D.ofInt b.2) = true) ∨ b.1 = b.2 ∨
      MarkRead (defaultBounds p attr.classProperties) (defaultBounds p attr.userDefaultProperties) b
  | .period p conf => ∃ n, askedPeriod attr p conf = some n ∧ 0 < n ∧ n ≤ intMax

end Integers

end Restart

end CppTango.Device.Conf
