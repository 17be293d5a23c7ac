import CppTango.Device.ConfSpec
import CppTango.Device.StrPropsRestart
import CppTango.Lib.Steps

namespace CppTango.Device.Conf

open CppTango.Lib StrProps

variable {D : Doubles}

section Coherency
variable {attr : AttrDesc}

def isInteger (t : AttrType) : Prop :=
  t ∈ [AttrType.devShort,.devLong,.devLong64,.devUChar,.devUShort,.devULong,.devULong64]

instance (t : AttrType) : Decidable (isInteger t) := inferInstanceAs (Decidable (_ ∈ _))

/-- The three ranges: each minimum with its maximum. -/
def ranges : List (RangeProp × RangeProp) :=
  [(.minValue,.maxValue),(.minAlarm,.maxAlarm),(.minWarning,.maxWarning)]

/-- Where both bounds are configured the range is not empty. -/
def Coherent (s : AttrState D) : Prop :=
  ∀ r ∈ ranges, (s.range r.1).checkIt = true → (s.range r.2).checkIt = true →
    (s.range r.1).val.less (s.range r.2).val = true

/-- One range is not empty where both bounds are configured. -/
def Ordered (s : AttrState D) (lo hi : RangeProp) : Prop :=
  (s.range lo).checkIt = true → (s.range hi).checkIt = true →
    (s.range lo).val.less (s.range hi).val = true

theorem coherent_iff {s : AttrState D} :
    Coherent s ↔ Ordered s .minValue .maxValue ∧ Ordered s .minAlarm .maxAlarm ∧
      Ordered s .minWarning .maxWarning := by
  simp [Coherent,ranges,Ordered]

variable (D attr) in
/-- The bound a text asks for. -/
def askedBound (p : RangeProp) (conf : String) : Option Int :=
  if askedText attr p conf = "Not specified" then none
  else
    match castTo D attr.dataType (D.read (askedText attr p conf)).1 with
    | .int n => some n
    | .dbl _ => none

variable (D attr) in
/-- The configuration asks for a `min_value` that is not below its `max_value`. -/
def emptyAsked (conf : AttributeConfig) : Bool :=
  if isState attr.toAttr then false
  else
    match askedBound D attr .minValue (conf.range .minValue),
        askedBound D attr .maxValue (conf.range .maxValue) with
    | some lo,some hi => hi ≤ lo
    | _,_ => false

theorem integer_cast {t : AttrType} (h : isInteger t) (x : D.Dbl) : ∃ n, castTo D t x = .int n := by
  cases t <;> first | exact ⟨_,rfl⟩ | exact absurd h (by decide)

theorem integer_number {t : AttrType} (h : isInteger t) : ¬ noNumber t ∧ ¬ noRange t := by
  revert h
  cases t <;> decide

theorem range_item (hs : ¬ isState attr.toAttr) (ht : ¬ noNumber attr.dataType) (p : RangeProp) :
    .range p ∈ items attr := by
  unfold items oldItems
  rw [if_neg hs,if_neg (by simp [hs,ht])]
  cases p <;> decide

variable {mem : Memorized D} {stack : RangeProp → D.Dbl × D.Dbl} {conf : AttributeConfig}
  {s : AttrState D} {vDb : List (AttPropDb D)}

/-- After a successful call a bound is the one its text asks for. -/
theorem bound_asked (ht : isInteger attr.dataType) (hs : ¬ isState attr.toAttr)
    (h : (setProperties attr mem stack conf s).2 = .ok vDb) (p : RangeProp) :
    let r := (setProperties attr mem stack conf s).1.range p
    match askedBound D attr p (conf.range p) with
    | none => r.checkIt = false
    | some n => r.checkIt = true ∧ r.val = .int n := by
  obtain ⟨t,out,-,ho,he⟩ := setProperties_item h (range_item hs (integer_number ht).1 p)
  have hr : (setProperties attr mem stack conf s).1.range p =
      (setOneAlarmProp attr p mem (stack p) (conf.range p) (t.range p)).1 :=
    he.trans (Function.update_self ..)
  have hok : ∃ l, (setOneAlarmProp attr p mem (stack p) (conf.range p) (t.range p)).2 = .ok l := by
    change ((setOneAlarmProp attr p mem (stack p) (conf.range p) (t.range p)).2.map _) = _ at ho
    cases hx : (setOneAlarmProp attr p mem (stack p) (conf.range p) (t.range p)).2 with
    | error e =>
      rw [hx] at ho
      cases ho
    | ok l => exact ⟨l,rfl⟩
  obtain ⟨l,hl⟩ := hok
  dsimp only
  rw [hr]
  unfold askedBound
  rcases (setOneAlarmProp_ok hl).2 with ⟨ha,hv⟩ | ⟨ha,hv⟩
  · rw [if_pos ha,hv]
  · obtain ⟨n,hn⟩ := integer_cast ht (D.read (askedText attr p (conf.range p))).1
    rw [if_neg ha,hv,hn]
    exact ⟨rfl,rfl⟩

theorem less_of_not_atLeast {a b : Int} (h : (CheckVal.int a : CheckVal D).atLeast (.int b) = false) :
    (CheckVal.int a : CheckVal D).less (.int b) = true := by
  have hlt : ¬ b ≤ a := of_decide_eq_false h
  exact decide_eq_true (Int.lt_of_not_ge hlt)

theorem not_atLeast_of_checkPair {lo hi : RangeProp} (ht : isInteger attr.dataType)
    (h : checkPair attr s lo hi true = none) : (s.range lo).val.atLeast (s.range hi).val = false := by
  unfold checkPair at h
  rw [if_pos rfl,if_neg (integer_number ht).2] at h
  split at h
  next => cases h
  next hn => exact Bool.eq_false_iff.mpr hn

theorem checkPairs_none {lo hi : Bool} (h : checkRangeCoherency attr s lo hi = none) :
    checkPair attr s .minValue .maxValue (lo && hi) = none ∧
      checkPair attr s .minAlarm .maxAlarm
        ((s.range .minAlarm).checkIt && (s.range .maxAlarm).checkIt) = none ∧
      checkPair attr s .minWarning .maxWarning
        ((s.range .minWarning).checkIt && (s.range .maxWarning).checkIt) = none := by
  unfold checkRangeCoherency at h
  simpa only [Option.or_eq_none_iff] using h

/-- What a successful call has passed. -/
theorem setUpdProperties_ok {c : Call D} (h : (setUpdProperties attr c conf s).2 = none) :
    (∃ vDb, (setProperties attr c.mem c.stack conf s).2 = .ok vDb) ∧
      (setUpdProperties attr c conf s).1 = (setProperties attr c.mem c.stack conf s).1 ∧
      checkRangeCoherency attr (setProperties attr c.mem c.stack conf s).1
        (s.range .minValue).checkIt (s.range .maxValue).checkIt = none := by
  unfold setUpdProperties at h ⊢
  dsimp only at h ⊢
  split at h
  next => cases h
  next s1 vDb he =>
    rw [he]
    split at h
    next => cases h
    next hc =>
      rw [hc]
      split at h
      next => exact ⟨⟨vDb,rfl⟩,rfl,rfl⟩
      next => cases h

theorem state_untouched (hs : isState attr.toAttr) (p : RangeProp) :
    (setProperties attr mem stack conf s).1.range p = s.range p := by
  refine setProperties_keeps (i := .range p) ?_ s
  unfold items oldItems
  rw [if_pos hs,if_pos (.inl hs)]
  cases p <;> decide

/-- A pair whose check was made is in order. -/
theorem pair_checked (ht : isInteger attr.dataType) (hs : ¬ isState attr.toAttr)
    (h : (setProperties attr mem stack conf s).2 = .ok vDb) {lo hi : RangeProp}
    (hc : checkPair attr (setProperties attr mem stack conf s).1 lo hi true = none) :
    Ordered (setProperties attr mem stack conf s).1 lo hi := by
  intro hlo hhi
  have hb := not_atLeast_of_checkPair ht hc
  have hl := bound_asked ht hs h lo
  have hh := bound_asked ht hs h hi
  dsimp only at hl hh
  cases ha : askedBound D attr lo (conf.range lo) with
  | none =>
    rw [ha] at hl
    exact absurd (hlo.symm.trans hl) (by decide)
  | some a =>
    cases hb' : askedBound D attr hi (conf.range hi) with
    | none =>
      rw [hb'] at hh
      exact absurd (hhi.symm.trans hh) (by decide)
    | some b =>
      rw [ha] at hl
      rw [hb'] at hh
      rw [hl.2,hh.2] at hb ⊢
      exact less_of_not_atLeast hb

/-- The alarm and warning pairs are checked when both bounds are configured afterwards. -/
theorem pair_checked_after (ht : isInteger attr.dataType) (hs : ¬ isState attr.toAttr)
    (h : (setProperties attr mem stack conf s).2 = .ok vDb) {lo hi : RangeProp}
    (hc : checkPair attr (setProperties attr mem stack conf s).1 lo hi
      (((setProperties attr mem stack conf s).1.range lo).checkIt &&
        ((setProperties attr mem stack conf s).1.range hi).checkIt) = none) :
    Ordered (setProperties attr mem stack conf s).1 lo hi := by
  intro hlo hhi
  rw [hlo,hhi] at hc
  exact pair_checked ht hs h hc hlo hhi

/-- The range of the values itself, whether its check was made or not. -/
theorem value_pair (ht : isInteger attr.dataType) (hs : ¬ isState attr.toAttr)
    (h : (setProperties attr mem stack conf s).2 = .ok vDb) :
    Ordered (setProperties attr mem stack conf s).1 .minValue .maxValue ↔
      emptyAsked D attr conf = false := by
  have hl := bound_asked ht hs h .minValue
  have hh := bound_asked ht hs h .maxValue
  dsimp only at hl hh
  unfold Ordered emptyAsked
  rw [if_neg hs]
  cases ha : askedBound D attr .minValue (conf.range .minValue) with
  | none =>
    rw [ha] at hl
    simp [hl]
  | some a =>
    cases hb : askedBound D attr .maxValue (conf.range .maxValue) with
    | none =>
      rw [hb] at hh
      simp [hh]
    | some b =>
      rw [ha] at hl
      rw [hb] at hh
      rw [hl.1,hl.2,hh.1,hh.2]
      simp [CheckVal.less]

/-- A successful call leaves no empty range exactly when both limits were configured before it, so
that they are checked, or the new limits it asks for are not an empty range themselves. -/
theorem ranges_never_empty_iff {c : Call D} (ht : isInteger attr.dataType) (hs : Coherent s)
    (h : (setUpdProperties attr c conf s).2 = none) :
    Coherent (setUpdProperties attr c conf s).1 ↔
      ((s.range .minValue).checkIt = true ∧ (s.range .maxValue).checkIt = true) ∨
        emptyAsked D attr conf = false := by
  obtain ⟨⟨vDb,ho⟩,he,hc⟩ := setUpdProperties_ok h
  rw [he]
  by_cases hst : isState attr.toAttr
  · have hk : Coherent (setProperties attr c.mem c.stack conf s).1 := by
      intro r hr
      rw [state_untouched hst,state_untouched hst]
      exact hs r hr
    have hn : emptyAsked D attr conf = false := by
      unfold emptyAsked
      rw [if_pos hst]
    exact ⟨fun _ => .inr hn,fun _ => hk⟩
  · obtain ⟨hv,ha,hw⟩ := checkPairs_none hc
    have halarm := pair_checked_after ht hst ho ha
    have hwarning := pair_checked_after ht hst ho hw
    rw [coherent_iff]
    constructor
    · intro hk
      exact .inr ((value_pair ht hst ho).mp hk.1)
    · rintro (⟨hbl,hbh⟩ | hn)
      · rw [hbl,hbh] at hv
        exact ⟨pair_checked ht hst ho hv,halarm,hwarning⟩
      · exact ⟨(value_pair ht hst ho).mpr hn,halarm,hwarning⟩

/-- An attribute of type `DevShort` without defaults. -/
def sampleAttr : AttrDesc where
  name := "position"
  dataType := .devShort
  classProperties := []
  userDefaultProperties := []
  dName := "sys/motor/1"
  dataFormat := .scalar
  writable := .readWrite
  maxX := 1
  maxY := 0
  writableAttrName := "position"
  dispLevel := .operator

/-- Nothing is configured. -/
def sampleState : AttrState wholeNumbers where
  str _ := ""
  range _ := ⟨"Not specified",.int (0 : Int),false⟩
  rds := ⟨"Not specified",.int 0,"0",0,false⟩
  change _ := (intMax,intMax)
  period p := p.default

def sampleCall : Call wholeNumbers where
  mem := ⟨false,false,[]⟩
  stack _ := ((0 : Int),(0 : Int))
  stackDb _ := ((0 : Int),(0 : Int))
  stackBack _ := ((0 : Int),(0 : Int))
  useDb := false
  updError _ := none
  backFails _ := false

/-- The configuration that has these two limits and is as it was else. -/
def sampleConf (minValue maxValue : String) : AttributeConfig :=
  { getProperties sampleAttr sampleState with
    range := Function.update (Function.update (fun _ => "Not specified") .minValue minValue)
      .maxValue maxValue }

theorem coherent_sampleState : Coherent sampleState := by
  intro r _ h
  cases h

theorem ordered_limits_accepted :
    Coherent (setUpdProperties sampleAttr sampleCall (sampleConf "5" "10") sampleState).1 :=
  (ranges_never_empty_iff (by decide) coherent_sampleState (by decide)).mpr (.inr (by decide))

/-- Two limits that are new in one call are not compared. -/
theorem swapped_limits_accepted :
    isInteger sampleAttr.dataType ∧ Coherent sampleState ∧
      (setUpdProperties sampleAttr sampleCall (sampleConf "10" "5") sampleState).2 = none ∧
      ¬ Coherent (setUpdProperties sampleAttr sampleCall (sampleConf "10" "5") sampleState).1 := by
  refine ⟨by decide,coherent_sampleState,by decide,fun h => ?_⟩
  have := h (.minValue,.maxValue) (by simp [ranges])
  revert this
  decide

end Coherency

section Startup
variable (attr : AttrDesc)

/-- An integer read from a stream up to its end, taken as a number of `w` bits when it is
unsigned. -/
def readSignedEnd (w : Nat) (text : String) : Option Int :=
  (numeral (String.ofList (text.toList.dropWhile isSpace))).filter
    (fun n => -2 ^ (w-1) ≤ n ∧ n < 2 ^ (w-1))

def readUnsignedEnd (w : Nat) (text : String) : Option Int :=
  ((numeral (String.ofList (text.toList.dropWhile isSpace))).filter (fun n => n.natAbs < 2 ^ w)).map
    (fun n => n % 2 ^ w)

variable (D) in
/-- The value `init_check_val_prop` takes from a text, when it has the right format. -/
def initCheckValProp (t : AttrType) (text : String) : Option (CheckVal D) :=
  match t with
  | .devShort => (readSignedEnd 16 text).map .int
  | .devUShort => (readUnsignedEnd 16 text).map .int
  | .devUChar | .devEncoded => (readSignedEnd 16 text).map (fun n => .int (n % 2 ^ 8))
  | .devLong | .devLong64 | .devULong | .devULong64 =>
    if (D.read text).2 then some (.int (D.cast t (D.read text).1)) else none
  | .devDouble => if (D.read text).2 then some (.dbl (D.read text).1) else none
  | .devFloat => if (D.read text).2 then some (.dbl (D.toFloat (D.read text).1)) else none
  | .devString | .devEnum | .devState | .devBoolean => none

/-- The text a restart finds for a property. -/
def restartText (p : RangeProp) (db : List AttrProperty) : String :=
  (propInList p.name (addUserDefault (concat db attr.classProperties) attr.userDefaultProperties)).getD
    "Not specified"

variable (D) in
/-- The bound a restart computes: none when the property is not specified or refused. -/
def restartVal (p : RangeProp) (db : List AttrProperty) : Option (CheckVal D) :=
  if restartText attr p db = "Not specified" then none
  else initCheckValProp D attr.dataType (restartText attr p db)

end Startup

section Setters
variable (attr : AttrDesc)

/-- The bounds in memory and the properties of the attribute in the database. -/
structure RangeState (D : Doubles) where
  range : RangeProp → RangeConf D
  db : List AttrProperty

def RangeProp.isMin : RangeProp → Bool
  | .minValue | .minAlarm | .minWarning => true
  | .maxValue | .maxAlarm | .maxWarning => false

def RangeProp.opposite : RangeProp → RangeProp
  | .minValue => .maxValue
  | .maxValue => .minValue
  | .minAlarm => .maxAlarm
  | .maxAlarm => .minAlarm
  | .minWarning => .maxWarning
  | .maxWarning => .minWarning

/-- `set_one_alarm_prop`, then `upd_database`. -/
def changeProp (mem : Memorized D) (stack : D.Dbl × D.Dbl) (p : RangeProp) (conf : String)
    (s : RangeState D) : Option (RangeState D) :=
  match setOneAlarmProp attr p mem stack conf (s.range p) with
  | (_,.error _) => none
  | (r,.ok dbas) =>
    some ⟨Function.update s.range p r,updDatabase (dbas.map (fun dba => ⟨p.name,dba⟩)) s.db⟩

/-- What `upd_att_prop_db` sends; for `DEV_ENCODED` the datum has no value. -/
def updAttPropText (t : AttrType) (n : Int) : String := if t = .devEncoded then "" else intString n

/-- The typed setter of a property, `set_min_value` and the others, called with a number. -/
def setTyped (p : RangeProp) (n : Int) (s : RangeState D) : Option (RangeState D) :=
  let opposite := s.range p.opposite
  let new : CheckVal D := .int n
  if opposite.checkIt ∧ (if p.isMin then new.atLeast opposite.val else opposite.val.atLeast new) then none
  else
    some ⟨Function.update s.range p ⟨intString n,new,true⟩,
      if p.userDef attr = some (intString n) then without AttrProperty.name p.name s.db
      else putProperty s.db p.name (updAttPropText attr.dataType n)⟩

/-- `avns_in_db` and `avns_in_att`; the setters of alarms and warnings hand over a dummy in place
of the flag. -/
def setNotSpecified (p : RangeProp) (s : RangeState D) : RangeState D :=
  ⟨Function.update s.range p ⟨"Not specified",(s.range p).val,
      if p = .minValue ∨ p = .maxValue then false else (s.range p).checkIt⟩,
    putProperty s.db p.name "Not specified"⟩

/-- The text the typed setter goes on with, none for not specified. -/
def settledText (p : RangeProp) (conf : String) : Option String :=
  match p.classDef attr,p.userDef attr with
  | some cls,user =>
    if sameNoCase conf "Not specified" then none
    else if sameNoCase conf "NaN" ∨ sameNoCase conf cls then some cls
    else if conf = "" then user
    else some conf
  | none,some user =>
    if sameNoCase conf "Not specified" then none
    else if sameNoCase conf "NaN" ∨ sameNoCase conf user ∨ conf = "" then some user
    else some conf
  | none,none => if isKeyword conf then none else some conf

/-- The typed setter called with a text. -/
def setTypedText (p : RangeProp) (conf : String) (s : RangeState D) : Option (RangeState D) :=
  if noNumber attr.dataType ∨ attr.dataType = .devEnum then none
  else
    match settledText attr p conf with
    | none => some (setNotSpecified p s)
    | some text =>
      if (D.read text).2 then
        match castTo D attr.dataType (D.read text).1 with
        | .int n => setTyped attr p n s
        | .dbl _ => none
      else none

/-- A change of one property. -/
inductive Change (D : Doubles)
  | alarmProp (mem : Memorized D) (stack : D.Dbl × D.Dbl) (p : RangeProp) (conf : String)
  | typed (p : RangeProp) (n : Int)
  | typedText (p : RangeProp) (conf : String)

/-- The state after a change that succeeds. -/
def change (s : RangeState D) : Change D → Option (RangeState D)
  | .alarmProp mem stack p conf => changeProp attr mem stack p conf s
  | .typed p n => setTyped attr p n s
  | .typedText p conf => setTypedText attr p conf s

def changeStep (s : RangeState D) (c : Change D) : RangeState D := (change attr s c).getD s

end Setters

end CppTango.Device.Conf
