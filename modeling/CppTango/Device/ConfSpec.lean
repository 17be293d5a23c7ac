import CppTango.Device.Conf

namespace CppTango.Device.Conf

open CppTango.Lib StrProps

variable {D : Doubles} {attr : AttrDesc}

section Items
variable {mem : Memorized D} {stack : RangeProp → D.Dbl × D.Dbl} {conf : AttributeConfig}

/-- Two states hold the same for an item. -/
def sameItem (i : Item) (s t : AttrState D) : Prop :=
  match i with
  | .str p => s.str p = t.str p
  | .range p => s.range p = t.range p
  | .rds => s.rds = t.rds
  | .change p => s.change p = t.change p
  | .period p => s.period p = t.period p
  | .hardCoded | .hardCodedAgain | .level => True

theorem sameItem_equivalence (i : Item) : Equivalence (sameItem (D := D) i) := by
  cases i with
  | hardCoded | hardCodedAgain | level =>
    exact ⟨fun _ => trivial,fun _ => trivial,fun _ _ => trivial⟩
  | str p | range p | rds | change p | period p => exact ⟨fun _ => rfl,Eq.symm,Eq.trans⟩

theorem checkOnly_state (err : Option DevErrorList) (s : AttrState D) : (checkOnly err s).1 = s := by
  cases err <;> rfl

/-- An item is the business of its own setter only. -/
theorem itemSetter_keeps (i : Item) :
    Keeps sameItem ⟨i,itemSetter attr mem stack conf i⟩ := by
  intro j s hne
  cases i with
  | hardCoded | hardCodedAgain | level =>
    dsimp only [itemSetter]
    rw [checkOnly_state]
    exact (sameItem_equivalence j).refl s
  | str p =>
    cases j with
    | str q => exact Function.update_of_ne (fun he => hne (congrArg Item.str he)) _ _
    | hardCoded | hardCodedAgain | level => trivial
    | range q | rds | change q | period q => rfl
  | range p =>
    cases j with
    | range q => exact Function.update_of_ne (fun he => hne (congrArg Item.range he)) _ _
    | hardCoded | hardCodedAgain | level => trivial
    | str q | rds | change q | period q => rfl
  | rds =>
    cases j with
    | rds => exact absurd rfl hne
    | hardCoded | hardCodedAgain | level => trivial
    | str q | range q | change q | period q => rfl
  | change p =>
    cases j with
    | change q => exact Function.update_of_ne (fun he => hne (congrArg Item.change he)) _ _
    | hardCoded | hardCodedAgain | level => trivial
    | str q | range q | rds | period q => rfl
  | period p =>
    cases j with
    | period q => exact Function.update_of_ne (fun he => hne (congrArg Item.period he)) _ _
    | hardCoded | hardCodedAgain | level => trivial
    | str q | range q | rds | change q => rfl

theorem items_nodup (attr : AttrDesc) : (items attr).Nodup := by
  unfold items oldItems
  by_cases h : isState attr.toAttr
  · rw [if_pos h,if_pos (.inl h)]
    decide
  · rw [if_neg h]
    split <;> decide

variable (attr) in
theorem cells_items (f : Item → PropSetter D) :
    ((items attr).map (fun i => (⟨i,f i⟩ : CellSetter _ _ _ _))).map CellSetter.cell = items attr := by
  rw [List.map_map]
  exact List.map_id _

theorem setProperties_keeps {i : Item} (hi : i ∉ items attr) (s : AttrState D) :
    sameItem i (setProperties attr mem stack conf s).1 s :=
  setAll_keeps sameItem_equivalence (List.forall_mem_map.mpr (fun j _ => itemSetter_keeps j))
    (by rwa [cells_items]) s

/-- When nothing is refused, each item is what its setter has made of the old one. -/
theorem setProperties_item {s : AttrState D} {vDb : List (AttPropDb D)}
    (h : (setProperties attr mem stack conf s).2 = .ok vDb) {i : Item} (hi : i ∈ items attr) :
    ∃ t out, sameItem i t s ∧ (itemSetter attr mem stack conf i t).2 = .ok out ∧
      sameItem i (setProperties attr mem stack conf s).1 (itemSetter attr mem stack conf i t).1 := by
  obtain ⟨t,out,_,_,ht,ho,hs,-⟩ := setAll_cell sameItem_equivalence
    (List.forall_mem_map.mpr (fun j _ => itemSetter_keeps j)) ((cells_items attr _).symm ▸ items_nodup attr) h
    (List.mem_map_of_mem hi)
  exact ⟨t,out,ht,ho,hs⟩

/-- The properties in the database that belong to an item. -/
def Item.names : Item → List String
  | .str p => [p.name]
  | .range p => [p.name]
  | .rds => ["delta_val","delta_t"]
  | .change p => [p.name]
  | .period p => [p.name]
  | .hardCoded | .hardCodedAgain | .level => []

theorem itemNames_nodup (attr : AttrDesc) : ((items attr).flatMap Item.names).Nodup := by
  unfold items oldItems
  by_cases h : isState attr.toAttr
  · rw [if_pos h,if_pos (.inl h)]
    decide
  · rw [if_neg h]
    split <;> decide

theorem setRdsPropDb_names {conf : RdsTexts} {out : List (AttPropDb D)} (h : setRdsPropDb D attr conf = .ok out) :
    (out.map AttPropDb.name).Sublist (Item.names .rds) := by
  unfold setRdsPropDb at h
  cases hv : deltaValDb D attr conf.deltaVal with
  | error e =>
    rw [hv] at h
    cases h
  | ok v =>
    rw [hv] at h
    dsimp only at h
    cases ht : deltaTDb D attr conf.deltaT with
    | error e =>
      rw [ht] at h
      cases h
    | ok t =>
      rw [ht] at h
      dsimp only at h
      split_ifs at h <;> cases h <;> first | exact List.Sublist.refl _ | exact List.nil_sublist _

theorem setOneAlarmProp_work {p : RangeProp} {stack : D.Dbl × D.Dbl} {conf : String} {r : RangeConf D}
    {l : List DbAction} (h : (setOneAlarmProp attr p mem stack conf r).2 = .ok l) : l.length ≤ 1 := by
  have hstore : ∀ store, storeInDb D attr p conf store = .ok l → l.length ≤ 1 := by
    intro store hs
    unfold storeInDb at hs
    split at hs
    next => cases hs; decide
    next => cases hs; exact le_rfl
    next => cases hs; exact le_rfl
    next =>
      split at hs
      next => cases hs; exact le_rfl
      next => cases hs
    next => cases hs; exact le_rfl
  unfold setOneAlarmProp at h
  split at h
  next => cases h
  next =>
    dsimp only at h
    split at h
    next => exact hstore _ h
    next =>
      split at h
      next => cases h
      next =>
        split at h
        next => cases h
        next => exact hstore _ h

theorem periodDb_names {p : PeriodProp} {conf : String} {out : List (AttPropDb D)}
    (h : periodDb D attr p conf = .ok out) : out.map AttPropDb.name = [p.name] := by
  unfold periodDb at h
  split at h
  next =>
    split at h
    next => cases h; rfl
    next =>
      split at h
      next => split at h <;> cases h <;> rfl
      next =>
        cases hr : readPeriod D attr p conf with
        | error e =>
          rw [hr] at h
          cases h
        | ok n =>
          rw [hr] at h
          cases h
          rfl
  next => cases h; rfl

theorem itemSetter_names (i : Item) {s : AttrState D} {out : List (AttPropDb D)}
    (h : (itemSetter attr mem stack conf i s).2 = .ok out) : (out.map AttPropDb.name).Sublist i.names := by
  cases i with
  | hardCoded | hardCodedAgain | level =>
    dsimp only [itemSetter] at h
    unfold checkOnly at h
    split at h
    next => cases h
    next => cases h; exact List.nil_sublist _
  | str p =>
    dsimp only [itemSetter] at h
    unfold setStr at h
    cases h
    cases (setOneStrProp attr.toAttr p (conf.str p) (s.str p)).2 with
    | none => exact List.nil_sublist _
    | some dba => exact List.Sublist.refl _
  | range p =>
    dsimp only [itemSetter] at h
    unfold setRange at h
    dsimp only at h
    cases hr : (setOneAlarmProp attr p mem (stack p) (conf.range p) (s.range p)).2 with
    | error e =>
      rw [hr] at h
      cases h
    | ok l =>
      rw [hr] at h
      cases h
      have hl := setOneAlarmProp_work hr
      cases l with
      | nil => exact List.nil_sublist _
      | cons dba l =>
        cases l with
        | nil => exact List.Sublist.refl _
        | cons _ _ => simp at hl
  | rds =>
    dsimp only [itemSetter] at h
    unfold setRds setRdsProp at h
    split at h
    next => cases h
    next =>
      dsimp only at h
      split at h
      next => exact setRdsPropDb_names h
      next => cases h; exact List.nil_sublist _
  | change p =>
    dsimp only [itemSetter] at h
    unfold setChange setOneEventProp at h
    dsimp only at h
    split at h
    next => cases h
    next =>
      split at h
      next => cases h
      next =>
        split at h
        next => cases h
        next =>
          cases h
          split
          next => exact List.nil_sublist _
          next => exact List.Sublist.refl _
  | period p =>
    dsimp only [itemSetter] at h
    unfold setPeriod setOneEventPeriod at h
    dsimp only at h
    split at h
    next => cases h
    next =>
      dsimp only at h
      split at h
      next => cases h; exact List.nil_sublist _
      next =>
        rw [periodDb_names h]
        exact List.Sublist.refl _

/-- The work for the database is about the items, each property once. -/
theorem setProperties_names {s : AttrState D} {vDb : List (AttPropDb D)}
    (h : (setProperties attr mem stack conf s).2 = .ok vDb) :
    (vDb.map AttPropDb.name).Sublist ((items attr).flatMap Item.names) := by
  have hall := setAll_names AttPropDb.name Item.names
    (List.forall_mem_map.mpr fun i _ s out ho => itemSetter_names i ho) h
  rwa [List.flatMap_map] at hall

end Items

section Alarm
variable {mem : Memorized D} {p : RangeProp} {stack : D.Dbl × D.Dbl} {conf : String}

variable (attr p) in
/-- The text `set_one_alarm_prop` settles on. -/
def askedText (conf : String) : String :=
  if sameNoCase conf "Not specified" then "Not specified"
  else if conf = "" then (p.userDef attr).getD "Not specified"
  else if sameNoCase conf "NaN" then (p.classDef attr).getD ((p.userDef attr).getD "Not specified")
  else conf

theorem chooseAlarm_str (old : String) : (chooseAlarm D attr p conf old).str = askedText attr p conf := by
  unfold chooseAlarm askedText
  split
  next => rfl
  next =>
    split
    next => rfl
    next => split <;> rfl

/-- What a successful call leaves: the bound of the text it settles on. -/
theorem setOneAlarmProp_ok {s : RangeConf D} {l : List DbAction}
    (h : (setOneAlarmProp attr p mem stack conf s).2 = .ok l) :
    storeInDb D attr p conf (chooseAlarm D attr p conf s.str).store = .ok l ∧
      ((askedText attr p conf = "Not specified" ∧
        (setOneAlarmProp attr p mem stack conf s).1 = ⟨"Not specified",s.val,false⟩) ∨
      (askedText attr p conf ≠ "Not specified" ∧
        (setOneAlarmProp attr p mem stack conf s).1 =
          ⟨shownText (p.classDef attr) (p.userDef attr) (chooseAlarm D attr p conf s.str) stack
              (typedText D attr.dataType (askedText attr p conf) (D.read (askedText attr p conf)).1),
            castTo D attr.dataType (D.read (askedText attr p conf)).1,true⟩)) := by
  unfold setOneAlarmProp at h ⊢
  split at h
  next => cases h
  next hn =>
    rw [if_neg hn]
    simp only [chooseAlarm_str] at h ⊢
    split at h
    next ha =>
      rw [if_pos ha]
      exact ⟨h,.inl ⟨ha,rfl⟩⟩
    next ha =>
      rw [if_neg ha]
      unfold convertPropValue at h ⊢
      split at h
      next => cases h
      next text v hc =>
        split at hc
        next hr =>
          cases hc
          split at h
          next => cases h
          next => exact ⟨h,.inr ⟨ha,rfl⟩⟩
        next => cases hc

section Shown
variable (cls user : Option String) (stack : D.Dbl × D.Dbl) (c : Chosen) (text : String)

/-- Whether the double of the default a bound is compared with has been read in the call. -/
def defaultRead (cls : Option String) (c : Chosen) : Bool :=
  if cls.isSome then c.classRead else c.userRead

/-- The double on the stack that is in its place otherwise. -/
def stackDouble (cls : Option String) (stack : D.Dbl × D.Dbl) : D.Dbl :=
  if cls.isSome then stack.1 else stack.2

/-- A bound is shown as its own text or as the default that seems to be the same number. -/
theorem shownText_cases :
    shownText cls user c stack text = text ∨
      ∃ d, cls.or user = some d ∧ shownText cls user c stack text = d ∧
        D.eq (D.read text).1 (if defaultRead cls c then (D.read d).1 else stackDouble cls stack) = true := by
  have hsame : ∀ d x,
      (if text ≠ "Not specified" ∧ (D.read text).2 ∧ D.eq (D.read text).1 x then d else text) = text ∨
        (if text ≠ "Not specified" ∧ (D.read text).2 ∧ D.eq (D.read text).1 x then d else text) = d ∧
          D.eq (D.read text).1 x = true := by
    intro d x
    split
    next he => exact .inr ⟨rfl,he.2.2⟩
    next => exact .inl rfl
  cases cls with
  | some d => exact (hsame d _).imp_right (fun h => ⟨d,rfl,h⟩)
  | none =>
    cases user with
    | some d => exact (hsame d _).imp_right (fun h => ⟨d,rfl,h⟩)
    | none => exact .inl rfl

end Shown

end Alarm

section Rds

theorem chooseRds_library {name library conf : String} {isLibrary : Prop} [Decidable isLibrary]
    (h : isLibrary) : chooseRds attr name library conf isLibrary = (library,none) := if_pos h

theorem chooseRds_number {name library conf : String} {isLibrary : Prop} [Decidable isLibrary]
    (h : ¬ isLibrary) (hk : ¬ isKeyword conf) :
    chooseRds attr name library conf isLibrary = (conf,none) := by
  unfold chooseRds
  dsimp only
  rw [if_neg h,if_neg (fun h3 => hk (.inr (.inr h3))),if_neg (fun h2 => hk (.inr (.inl h2)))]

end Rds

end CppTango.Device.Conf
