import CppTango.Device.EnumConf

namespace CppTango.Device.Conf

open CppTango.Lib StrProps

variable {D : Doubles} {attr : AttrDesc}

section Again
variable {mem : Memorized D} {stack stack' : RangeProp → D.Dbl × D.Dbl} {conf : AttributeConfig}

/-- Whether a text is refused for `delta_val` depends on the text only. -/
theorem setDeltaVal_result (attr : AttrDesc) (text : String) (s t : RdsConf D) :
    (setDeltaVal attr text s).2 = (setDeltaVal attr text t).2 := by
  unfold setDeltaVal
  dsimp only
  split
  next => rfl
  next =>
    split
    next => rfl
    next =>
      cases convertPropValue D attr.dataType (chooseRds attr "delta_val" "Not specified" text
        (sameNoCase text "Not specified")).1 <;> rfl

theorem setDeltaT_result (attr : AttrDesc) (text : String) (s t : RdsConf D) :
    (setDeltaT attr text s).2 = (setDeltaT attr text t).2 ∧
      ∀ b, (setDeltaT attr text s).2 = .ok b →
        (setDeltaT attr text s).1.deltaT = (setDeltaT attr text t).1.deltaT := by
  unfold setDeltaT
  dsimp only
  split
  next => exact ⟨rfl,fun _ _ => rfl⟩
  next =>
    split
    next => exact ⟨rfl,fun _ h => by cases h⟩
    next =>
      split
      next => exact ⟨rfl,fun _ _ => rfl⟩
      next => exact ⟨rfl,fun _ h => by cases h⟩

theorem setRdsPropVal_again {texts : RdsTexts} (s t : RdsConf D) (h : (setRdsPropVal attr texts s).2 = .ok ()) :
    (setRdsPropVal attr texts t).2 = .ok () ∧
      (setRdsPropVal attr texts t).1.deltaT = (setRdsPropVal attr texts s).1.deltaT := by
  unfold setRdsPropVal at h ⊢
  have hv := setDeltaVal_result attr texts.deltaVal s t
  cases hs : setDeltaVal attr texts.deltaVal s with
  | mk s1 r =>
    cases ht : setDeltaVal attr texts.deltaVal t with
    | mk t1 r' =>
      rw [hs,ht] at hv
      dsimp only at hv
      subst hv
      rw [hs] at h
      cases r with
      | error e => cases h
      | ok defined =>
        dsimp only at h ⊢
        obtain ⟨hr,hd⟩ := setDeltaT_result attr texts.deltaT s1 t1
        cases hs2 : setDeltaT attr texts.deltaT s1 with
        | mk s2 q =>
          cases ht2 : setDeltaT attr texts.deltaT t1 with
          | mk t2 q' =>
            rw [hs2,ht2] at hr hd
            dsimp only at hr hd
            subst hr
            rw [hs2] at h
            cases q with
            | error e => cases h
            | ok b => exact ⟨rfl,(hd b rfl).symm⟩

/-- The RDS properties of an enumeration that have been set are set again. -/
theorem setRdsProp_again (henum : attr.dataType = .devEnum) {texts : RdsTexts} {s : RdsConf D}
    {out : List (AttPropDb D)} (h : (setRdsProp attr texts s).2 = .ok out) :
    ∃ out', (setRdsProp attr texts (setRdsProp attr texts s).1).2 = .ok out' := by
  unfold setRdsProp at h ⊢
  cases hs : setRdsPropVal attr texts s with
  | mk s1 r =>
    rw [hs] at h
    cases r with
    | error e => cases h
    | ok _ =>
      dsimp only
      obtain ⟨hok,ht⟩ := setRdsPropVal_again s s1 (congrArg Prod.snd hs)
      rw [hs] at ht
      cases hs2 : setRdsPropVal attr texts s1 with
      | mk s2 r2 =>
        rw [hs2] at hok ht
        dsimp only at hok ht
        subst hok
        dsimp only
        -- the second time `delta_t` does not change, and `delta_val` of an enumeration is not looked at
        rw [if_neg]
        · exact ⟨_,rfl⟩
        · rintro (hne | ⟨hne,-⟩)
          · exact hne ht.symm
          · exact hne henum

/-- A keyword is stored without being read. -/
theorem storeInDb_keyword {p : RangeProp} {text : String} (hk : isKeyword text) (old : String) :
    ∃ l, storeInDb D attr p text (chooseAlarm D attr p text old).store = .ok l := by
  have hstore : (chooseAlarm D attr p text old).store ≠ .confVal := by
    unfold chooseAlarm
    dsimp only
    split
    next => dsimp only; split_ifs <;> simp
    next h1 =>
      split
      next => dsimp only; split_ifs <;> simp
      next h2 =>
        rw [if_pos ((hk.resolve_left h1).resolve_left h2)]
        dsimp only
        split_ifs <;> simp
  cases hs : (chooseAlarm D attr p text old).store with
  | confVal => exact absurd hs hstore
  | nothing | notSpecified | userDefault | delete => exact ⟨_,rfl⟩

/-- The bounds of an enumeration take keywords only. -/
theorem setOneAlarmProp_again (henum : attr.dataType = .devEnum) {p : RangeProp} {old : D.Dbl × D.Dbl}
    {text : String} {r : RangeConf D} {l : List DbAction}
    (h : (setOneAlarmProp attr p mem old text r).2 = .ok l) (old' : D.Dbl × D.Dbl) (r' : RangeConf D) :
    ∃ l', (setOneAlarmProp attr p mem old' text r').2 = .ok l' := by
  by_cases hk : isKeyword text
  · unfold setOneAlarmProp at h ⊢
    rw [if_neg (fun hn => hn.2 hk)] at h ⊢
    dsimp only at h ⊢
    simp only [chooseAlarm_str] at h ⊢
    by_cases ha : askedText attr p text = "Not specified"
    · rw [if_pos ha]
      exact storeInDb_keyword hk _
    · rw [if_neg ha] at h ⊢
      cases hc : convertPropValue D attr.dataType (askedText attr p text) with
      | errFormat v =>
        rw [hc] at h
        cases h
      | done shown v =>
        rw [hc] at h
        dsimp only at h ⊢
        cases hm : checkMemorized attr p mem v with
        | some e =>
          rw [hm] at h
          cases h
        | none => exact storeInDb_keyword hk _
  · unfold setOneAlarmProp at h
    rw [if_pos ⟨.inr henum,hk⟩] at h
    cases h

theorem setOneEventProp_again {p : ChangeProp} {text : String} {old : D.Dbl × D.Dbl} {out : List (AttPropDb D)}
    (h : (setOneEventProp attr p text old).2 = .ok out) (old' : D.Dbl × D.Dbl) :
    ∃ out', (setOneEventProp attr p text old').2 = .ok out' := by
  unfold setOneEventProp at h ⊢
  cases hu : validateDefault D attr p.name attr.userDefaultProperties with
  | error e =>
    rw [hu] at h
    cases h
  | ok usr =>
    rw [hu] at h
    cases hc : validateDefault D attr p.name attr.classProperties with
    | error e =>
      rw [hc] at h
      cases h
    | ok cls =>
      rw [hc] at h
      cases hv : validateChangeProperties D attr p.name text with
      | error e =>
        rw [hv] at h
        cases h
      | ok v => exact ⟨_,rfl⟩

/-- What a setter of an enumeration has accepted it accepts again, where it left its item. -/
theorem itemSetter_again (henum : attr.dataType = .devEnum) (i : Item) {t u : AttrState D}
    {out : List (AttPropDb D)} (h : (itemSetter attr mem stack conf i t).2 = .ok out)
    (hu : sameItem i u (itemSetter attr mem stack conf i t).1) :
    ∃ out', (itemSetter attr mem stack' conf i u).2 = .ok out' := by
  cases i with
  | hardCoded | hardCodedAgain | level =>
    dsimp only [itemSetter] at h ⊢
    unfold checkOnly at h ⊢
    split at h
    next => cases h
    next => exact ⟨_,rfl⟩
  | str p => exact ⟨_,rfl⟩
  | range p =>
    dsimp only [itemSetter] at h ⊢
    unfold setRange at h ⊢
    dsimp only at h ⊢
    cases hr : (setOneAlarmProp attr p mem (stack p) (conf.range p) (t.range p)).2 with
    | error e =>
      rw [hr] at h
      cases h
    | ok l =>
      obtain ⟨l',hl⟩ := setOneAlarmProp_again henum hr (stack' p) (u.range p)
      rw [hl]
      exact ⟨_,rfl⟩
  | rds =>
    have hrds : u.rds = (setRdsProp attr conf.rds t.rds).1 := hu
    dsimp only [itemSetter] at h ⊢
    unfold setRds at h ⊢
    dsimp only at h ⊢
    rw [hrds]
    exact setRdsProp_again henum h
  | change p =>
    exact setOneEventProp_again h (u.change p)
  | period p =>
    have hper : u.period p = (setOneEventPeriod D attr p (conf.period p) (t.period p)).1 := by
      exact hu.trans (Function.update_self ..)
    dsimp only [itemSetter] at h ⊢
    unfold setPeriod at h ⊢
    dsimp only at h ⊢
    rw [hper]
    unfold setOneEventPeriod at h ⊢
    cases hv : periodVal D attr p (conf.period p) with
    | error e =>
      rw [hv] at h
      cases h
    | ok n =>
      dsimp only
      rw [if_pos rfl]
      exact ⟨_,rfl⟩

/-- A configuration of an enumeration that has been set is set again. -/
theorem setProperties_again (stack' : RangeProp → D.Dbl × D.Dbl) (henum : attr.dataType = .devEnum) {s : AttrState D} {out : List (AttPropDb D)}
    (h : (setProperties attr mem stack conf s).2 = .ok out) :
    ∃ out', (setProperties attr mem stack' conf (setProperties attr mem stack conf s).1).2 = .ok out' := by
  refine setAll_succeeds sameItem_equivalence (List.forall_mem_map.mpr fun j _ => itemSetter_keeps j)
    ((cells_items attr _).symm ▸ items_nodup attr) (List.forall_mem_map.mpr fun i hi u hu => ?_)
  obtain ⟨t,out,-,ho,hs⟩ := setProperties_item h hi
  exact itemSetter_again henum i ho ((sameItem_equivalence i).trans hu hs)

end Again

section Labels
variable {labs : String} {oldLabels conf : List String} {fromDs : Bool} {db : List AttrProperty}

theorem startLabels_iff {labels : List String} :
    startLabels attr db = (labels,none) ↔
      ∃ labs, startProp attr "enum_labels" db = some labs ∧ splitLabels labs = labels ∧ labels.Nodup := by
  unfold startLabels initEnumProp startProp
  cases propInList "enum_labels" (addUserDefault (concat db attr.classProperties) attr.userDefaultProperties) with
  | none => simp
  | some labs =>
    have hok : (buildCheckEnumLabels attr labs).2 = none ↔ _ := buildCheckEnumLabels_ok attr
    have hlabels : (buildCheckEnumLabels attr labs).1 = splitLabels labs := rfl
    simp only [Prod.mk.injEq,hlabels,Option.map_eq_none_iff,hok,Option.some.injEq,exists_eq_left']
    exact and_congr_right fun h => by rw [h]

theorem changeLabels_ok (h : (splitLabels labs).Nodup) (dba : PropDba D) :
    changeLabels D attr labs dba oldLabels =
      (splitLabels labs,.ok (if splitLabels labs ≠ oldLabels then [⟨"enum_labels",dba⟩] else [])) := by
  have hnone := (buildCheckEnumLabels_ok attr).mpr h
  have hpair : buildCheckEnumLabels attr labs = (splitLabels labs,none) := Prod.ext rfl hnone
  unfold changeLabels
  rw [hpair]

theorem changeLabels_refused (oldLabels : List String) (h : ¬ (splitLabels labs).Nodup) (dba : PropDba D) :
    ∃ e, changeLabels D attr labs dba oldLabels = (splitLabels labs,.error e) := by
  obtain ⟨e,he⟩ := Option.ne_none_iff_exists'.mp (mt (buildCheckEnumLabels_ok attr).mp h)
  have hpair : buildCheckEnumLabels attr labs = (splitLabels labs,some e) := Prod.ext rfl he
  refine ⟨e,?_⟩
  unfold changeLabels
  rw [hpair]

theorem setProp5Specific_none (henum : attr.dataType = .devEnum)
    (h : labelsText attr conf fromDs oldLabels = none) :
    ∃ e, setProp5Specific D attr conf fromDs oldLabels = (oldLabels,.error e) := by
  unfold setProp5Specific
  rw [if_neg (not_not.mpr henum)]
  unfold labelsText at h
  cases conf with
  | nil => exact ⟨_,rfl⟩
  | cons first rest =>
    dsimp only at h ⊢
    split
    next => exact ⟨_,rfl⟩
    next h1 =>
      rw [if_neg h1] at h
      split
      next => exact ⟨_,rfl⟩
      next h2 =>
        rw [if_neg h2] at h
        split
        next h3 =>
          rw [if_pos h3] at h
          rw [h]
          exact ⟨_,rfl⟩
        next h3 =>
          rw [if_neg h3] at h
          split
          next h4 =>
            rw [if_pos h4] at h
            rw [h]
            exact ⟨_,rfl⟩
          next h4 =>
            rw [if_neg h4] at h
            cases h

/-- What a start finds after the work for the labels. -/
def Stored (attr : AttrDesc) (dba : PropDba D) (labs : String) : Prop :=
  (match dba.action with
  | .upd v => some v
  | .del => defaultProp attr "enum_labels") = some labs

theorem stored_labelsDba : Stored attr (labelsDba D attr labs) labs := by
  have hvect : Stored attr (PropDba.updFromVectStr (splitLabels labs) : PropDba D) labs :=
    congrArg some (joined_splitLabels labs)
  unfold labelsDba
  split
  next husr =>
    split
    next => exact hvect
    next hcls =>
      have hnone : attr.labelsClassDef = none := by simpa using hcls
      exact (congrArg₂ Option.or hnone husr).trans (Option.none_or ..)
  next =>
    split
    next hcls => exact (congrArg (Option.or · attr.labelsUserDef) hcls).trans (Option.some_or ..)
    next => exact hvect

/-- The text of a request goes into memory, and a start finds it unless a class default stands before it. -/
theorem setProp5Specific_some (henum : attr.dataType = .devEnum)
    (h : labelsText attr conf fromDs oldLabels = some labs) :
    ∃ dba : PropDba D, setProp5Specific D attr conf fromDs oldLabels = changeLabels D attr labs dba oldLabels ∧
      ((conf.head? = some "" → ∀ cls usr, attr.labelsClassDef = some cls → attr.labelsUserDef = some usr →
        cls = usr ∨ splitLabels usr = oldLabels) → Stored attr dba labs ∨ splitLabels labs = oldLabels) := by
  unfold setProp5Specific
  rw [if_neg (not_not.mpr henum)]
  unfold labelsText at h
  cases conf with
  | nil => cases h
  | cons first rest =>
    dsimp only at h ⊢
    split at h
    next => cases h
    next h1 =>
      rw [if_neg h1]
      split at h
      next => cases h
      next h2 =>
        rw [if_neg h2]
        split at h
        next h3 =>
          rw [if_pos h3,h]
          refine ⟨.del,rfl,fun hd => ?_⟩
          cases hc : attr.labelsClassDef with
          | none => exact .inl ((congrArg₂ Option.or hc h).trans (Option.none_or ..))
          | some cls =>
            rcases hd (congrArg some h3) cls labs hc rfl with rfl | hs
            · exact .inl ((congrArg (Option.or · attr.labelsUserDef) hc).trans (Option.some_or ..))
            · exact .inr hs
        next h3 =>
          rw [if_neg h3]
          split at h
          next h4 =>
            rw [if_pos h4,h]
            exact ⟨.del,rfl,fun _ => .inl h⟩
          next h4 =>
            rw [if_neg h4]
            obtain rfl := Option.some.inj h
            exact ⟨_,rfl,fun _ => .inl stored_labelsDba⟩

end Labels

section Database
variable {vDb : List (AttPropDb D)} {db : List AttrProperty}
  (hv : (vDb.map AttPropDb.name).Sublist ((items attr).flatMap Item.names))
include hv

theorem labels_not_item : "enum_labels" ∉ vDb.map AttPropDb.name := by
  intro hm
  have hi := hv.subset hm
  revert hi
  unfold items oldItems
  by_cases h : isState attr.toAttr
  · rw [if_pos h,if_pos (.inl h)]
    decide
  · rw [if_neg h]
    split <;> decide

theorem action_rest : actionOf "enum_labels" (vDb.map AttPropDb.sent) = none := by
  refine actionOf_not_mem ?_
  rw [List.map_map]
  exact labels_not_item hv

/-- The work for the rest of the configuration leaves the labels alone. -/
theorem startProp_rest : startProp attr "enum_labels" (updAttDatabase vDb db) = startProp attr "enum_labels" db := by
  rw [startProp_upd ((itemNames_nodup attr).sublist hv),action_rest hv]

theorem startProp_labels {dba : PropDba D} {labs : String} (hs : Stored attr dba labs) :
    startProp attr "enum_labels" (updAttDatabase (vDb ++ [(⟨"enum_labels",dba⟩ : AttPropDb D)]) db) = some labs := by
  have hn : ((vDb ++ [(⟨"enum_labels",dba⟩ : AttPropDb D)]).map AttPropDb.name).Nodup := by
    rw [List.map_append]
    refine ((itemNames_nodup attr).sublist hv).append (List.nodup_singleton _) ?_
    simpa using labels_not_item hv
  have ha : actionOf "enum_labels" ((vDb ++ [(⟨"enum_labels",dba⟩ : AttPropDb D)]).map AttPropDb.sent) =
      some dba.action := by
    rw [List.map_append,actionOf_append,action_rest hv]
    rfl
  rw [startProp_upd hn,ha]
  unfold Stored at hs
  cases hd : dba.action with
  | upd v =>
    rw [hd] at hs
    exact hs
  | del =>
    rw [hd] at hs
    exact hs

end Database

section Back
variable {c : EnumCall D} {s s1 : EnumState D} {labs : String}

theorem checkHardCoded_labels (labels : List String) :
    checkHardCoded attr c { getProperties5 attr c s with enumLabels := labels } = none := by
  unfold checkHardCoded getProperties5
  cases h : isWritten attr.writable <;> simp

/-- The old labels are read back as they are, unless they begin with a keyword. -/
theorem setOld_labels (henum : attr.dataType = .devEnum) (hl : splitLabels labs = s.enumLabels)
    (hn : s.enumLabels.Nodup) (hk : ¬ BeginsWithKeyword s.enumLabels) (labels : List String) :
    (setProp5Specific D attr s.enumLabels true labels).1 = s.enumLabels := by
  have htext : labelsText attr s.enumLabels true labels = some labs := by
    have hj := joined_splitLabels labs
    rw [hl] at hj
    unfold labelsText
    cases he : s.enumLabels with
    | nil => exact absurd (hl.trans he) (splitLabels_ne_nil labs)
    | cons first rest =>
      have hkey : ¬ isKeyword first := fun h => hk ⟨first,by rw [he]; rfl,h⟩
      dsimp only
      rw [if_neg (fun h => Bool.noConfusion h.1),if_neg (fun h => hkey (.inl h)),
        if_neg (fun h => hkey (.inr (.inl h))),if_neg (fun h => hkey (.inr (.inr h))),← he,hj]
  obtain ⟨dba,hset,-⟩ := setProp5Specific_some (D := D) henum htext
  rw [hset,changeLabels_ok (hl ▸ hn)]
  exact hl

theorem rollBack_labels (henum : attr.dataType = .devEnum) (hl : splitLabels labs = s.enumLabels)
    (hn : s.enumLabels.Nodup) (hk : ¬ BeginsWithKeyword s.enumLabels) (e : DevErrorList)
    (h : s1.enumLabels = s.enumLabels ∨
      ∃ out, (setProperties attr c.mem c.stackBack (getProperties attr s.toAttrState) s1.toAttrState).2 = .ok out) :
    (rollBack5 attr c (getProperties5 attr c s) s1 e).1.enumLabels = s.enumLabels := by
  have hc : checkHardCoded attr c (getProperties5 attr c s) = none := checkHardCoded_labels s.enumLabels
  unfold rollBack5 setProperties5
  rw [hc]
  dsimp only
  cases hr : setProperties attr c.mem c.stackBack (getProperties5 attr c s).toAttributeConfig s1.toAttrState with
  | mk s2 res =>
    cases res with
    | error e' =>
      rcases h with h | ⟨out,h⟩
      · exact h
      · cases (congrArg Prod.snd hr).symm.trans h
    | ok out => exact setOld_labels henum hl hn hk s1.enumLabels

end Back

section Steps
variable {s : LabelState D} {r : LabelRequest D}

/-- A refused request changes neither the labels nor the database; another one ends with the labels of its
text, and with them in the database where they are new. -/
theorem changeLabelsOf_cases (henum : attr.dataType = .devEnum) (hs : LabelsRight attr s)
    (hdb : DatabaseWorks r.call) (hback : LabelsRefused attr s r → ¬ BeginsWithKeyword s.att.enumLabels) :
    (LabelsRefused attr s r ∧ ∃ a e, changeLabelsOf attr s r = (a,.error e) ∧ a.enumLabels = s.att.enumLabels) ∨
      ¬ LabelsRefused attr s r ∧ ∃ labs s1 vDb, ∃ dba : PropDba D,
        labelsText attr r.labels r.call.fromDs s.att.enumLabels = some labs ∧ (splitLabels labs).Nodup ∧
        (vDb.map AttPropDb.name).Sublist ((items attr).flatMap Item.names) ∧
        (KeepsDefault attr s r → Stored attr dba labs ∨ splitLabels labs = s.att.enumLabels) ∧
        changeLabelsOf attr s r = (⟨s1,splitLabels labs⟩,
          .ok (vDb ++ (if splitLabels labs ≠ s.att.enumLabels then [⟨"enum_labels",dba⟩] else []))) := by
  obtain ⟨t,ht,hsplit,hnodup⟩ := startLabels_iff.mp hs.mirrored
  have hroll : LabelsRefused attr s r → ∀ (a : EnumState D) (e : DevErrorList),
      (a.enumLabels = s.att.enumLabels ∨ ∃ out,
        (setProperties attr r.call.mem r.call.stackBack (getProperties attr s.att.toAttrState) a.toAttrState).2 =
          .ok out) →
      (rollBack5 attr r.call (getProperties5 attr r.call s.att) a e).1.enumLabels = s.att.enumLabels :=
    fun hr a e h => rollBack_labels henum hsplit hnodup (hback hr) e h
  unfold changeLabelsOf setUpdProperties5 setProperties5 LabelRequest.conf
  rw [checkHardCoded_labels]
  dsimp only
  have hconf : (getProperties5 attr r.call s.att).toAttributeConfig = getProperties attr s.att.toAttrState := rfl
  rw [hconf]
  have hrefused : refused attr r.call.toCall (getProperties attr s.att.toAttrState) s.att.toAttrState = true →
      LabelsRefused attr s r := .inl
  unfold refused at hrefused
  cases hrest : setProperties attr r.call.mem r.call.stack (getProperties attr s.att.toAttrState)
      s.att.toAttrState with
  | mk s1 res =>
    rw [hrest] at hrefused
    cases res with
    | error e =>
      have hr := hrefused rfl
      exact .inl ⟨hr,_,_,rfl,hroll hr ⟨s1,s.att.enumLabels⟩ e (.inl rfl)⟩
    | ok vDb =>
      dsimp only at hrefused ⊢
      have hagain := setProperties_again r.call.stackBack henum (congrArg Prod.snd hrest)
      rw [hrest] at hagain
      cases hl : labelsText attr r.labels r.call.fromDs s.att.enumLabels with
      | none =>
        have hr : LabelsRefused attr s r := .inr fun labs h => by cases hl.symm.trans h
        obtain ⟨e,hset⟩ := setProp5Specific_none (D := D) henum hl
        rw [hset]
        exact .inl ⟨hr,_,_,rfl,hroll hr ⟨s1,s.att.enumLabels⟩ e (.inl rfl)⟩
      | some labs =>
        obtain ⟨dba,hset,hst⟩ := setProp5Specific_some (D := D) henum hl
        rw [hset]
        by_cases hd : (splitLabels labs).Nodup
        · rw [changeLabels_ok hd]
          dsimp only [Except.map]
          cases hcoh : checkRangeCoherency attr s1 (s.att.range .minValue).checkIt
              (s.att.range .maxValue).checkIt with
          | some e =>
            have hr := hrefused (by rw [hcoh]; rfl)
            exact .inl ⟨hr,_,_,rfl,hroll hr ⟨s1,splitLabels labs⟩ e (.inr hagain)⟩
          | none =>
            right
            refine ⟨?_,labs,s1,vDb,dba,rfl,hd,setProperties_names (congrArg Prod.snd hrest),hst,?_⟩
            · rintro (h | h)
              · unfold refused at h
                rw [hrest] at h
                dsimp only at h
                rw [hcoh] at h
                cases h
              · exact h labs hl hd
            · rw [hdb.1,if_pos rfl,hdb.2]
              rfl
        · obtain ⟨e,hc⟩ := changeLabels_refused s.att.enumLabels hd dba
          have hr : LabelsRefused attr s r := .inr fun labs' h => Option.some.inj (hl.symm.trans h) ▸ hd
          rw [hc]
          exact .inl ⟨hr,_,_,rfl,hroll hr ⟨s1,splitLabels labs⟩ e (.inr hagain)⟩

/-- A list of labels of the right length, none with a comma, gives as many labels. -/
theorem labels_number (h : KeepsNumber attr s r) (hds : r.call.fromDs = false) (hx : isExplicit r.labels)
    {labs : String} (ht : labelsText attr r.labels r.call.fromDs s.att.enumLabels = some labs) :
    (splitLabels labs).length = s.att.enumLabels.length := by
  by_cases hk : BeginsWithKeyword r.labels
  · exact h.1 hk labs ht
  · have hcomma := h.2 hk
    rw [hds] at ht
    cases hl : r.labels with
    | nil =>
      rw [hl] at ht
      cases ht
    | cons first rest =>
      rw [hl] at ht hk hcomma hx
      have hkey : ¬ isKeyword first := fun h => hk ⟨first,rfl,h⟩
      unfold labelsText at ht
      dsimp only at ht
      by_cases hlen : (first::rest).length ≠ s.att.enumLabels.length
      · rw [if_pos ⟨rfl,hx,hlen⟩] at ht
        cases ht
      · rw [if_neg (fun h => hlen h.2.2),if_neg (fun h => hkey (.inl h)),if_neg (fun h => hkey (.inr (.inl h))),
          if_neg (fun h => hkey (.inr (.inr h)))] at ht
        obtain rfl := Option.some.inj ht
        rw [splitLabels_joined hcomma (by simp)]
        exact not_not.mp hlen

theorem labelStep_right (henum : attr.dataType = .devEnum) (hs : LabelsRight attr s) (hdb : DatabaseWorks r.call)
    (hk : KeepsLabels attr s r) : RequestRight attr s r := by
  rcases changeLabelsOf_cases henum hs hdb hk.back with ⟨-,a,e,he,hsame⟩ |
    ⟨hnot,labs,s1,vDb,dba,htext,hd,hnames,hstored,hok⟩
  · have hstep : labelStep attr s r = ⟨a,s.db⟩ := by
      unfold labelStep
      rw [he]
    have hright : LabelsRight attr (labelStep attr s r) := by
      rw [hstep]
      exact ⟨hsame ▸ hs.distinct,hsame ▸ hs.mirrored⟩
    exact ⟨hright,fun _ => by rw [hstep]; exact hsame,fun _ _ => by rw [hstep]; exact congrArg _ hsame⟩
  · have hstep : labelStep attr s r = ⟨⟨s1,splitLabels labs⟩,updAttDatabase
        (vDb ++ (if splitLabels labs ≠ s.att.enumLabels then [⟨"enum_labels",dba⟩] else [])) s.db⟩ := by
      unfold labelStep
      rw [hok]
    have hright : LabelsRight attr (labelStep attr s r) := by
      rw [hstep]
      refine ⟨hd,startLabels_iff.mpr ?_⟩
      by_cases hnew : splitLabels labs = s.att.enumLabels
      · obtain ⟨t,ht,hsplit,-⟩ := startLabels_iff.mp hs.mirrored
        rw [if_neg (not_not.mpr hnew),List.append_nil]
        exact ⟨t,(startProp_rest hnames).trans ht,hsplit.trans hnew.symm,hd⟩
      · rw [if_pos hnew]
        exact ⟨labs,startProp_labels hnames ((hstored (hk.default hnot)).resolve_right hnew),rfl,hd⟩
    refine ⟨hright,fun ⟨e,he⟩ => ?_,fun hds hx => ?_⟩
    · rw [hok] at he
      cases he
    · rw [hstep]
      exact labels_number (hk.number hnot hds hx) hds hx htext

/-- In a run whose requests all keep the labels, after each request the labels in memory are different from each
other and those of a start; a request that throws leaves them, and a client does not change their number by a list. -/
theorem labels_mirrored {reqs : List (LabelRequest D)} (henum : attr.dataType = .devEnum) (hs : LabelsRight attr s)
    (hr : Along (labelStep attr) (fun s r => DatabaseWorks r.call ∧ KeepsLabels attr s r) s reqs) :
    ∀ l r, l ++ [r] <+: reqs → RequestRight attr (l.foldl (labelStep attr) s) r := by
  intro l r hl
  have hrun := along_append.mp (along_start hr hl)
  have hstep : ∀ (s : LabelState D) r, LabelsRight attr s → DatabaseWorks r.call ∧ KeepsLabels attr s r →
      LabelsRight attr (labelStep attr s r) := fun s r hs h => (labelStep_right henum hs h.1 h.2).after
  have hinv : LabelsRight attr (l.foldl (labelStep attr) s) := along_inv hstep hs hrun.1
  exact labelStep_right henum hinv hrun.2.1.1 hrun.2.1.2

end Steps

section Samples

/-- An enumeration with a default at both levels. -/
def switchAttr : AttrDesc :=
  { sampleAttr with
    dataType := .devEnum
    classProperties := [⟨"enum_labels","ON,OFF"⟩]
    userDefaultProperties := [⟨"enum_labels","UP,DOWN"⟩] }

/-- Its labels are those of the class. -/
def switchState : LabelState wholeNumbers := ⟨⟨sampleState,["ON","OFF"]⟩,[]⟩

/-- Labels from a client. -/
def clientLabels (labels : List String) : LabelRequest wholeNumbers :=
  ⟨{ sampleCall with useDb := true,memInit := false,fromDs := false },labels⟩

theorem switch_right : LabelsRight switchAttr switchState := ⟨by decide,by decide⟩

theorem database_works (labels : List String) : DatabaseWorks (clientLabels labels).call := ⟨rfl,fun _ => rfl⟩

theorem new_labels_mirrored :
    RequestRight switchAttr ([clientLabels ["LEFT","RIGHT"]].foldl (labelStep switchAttr) switchState)
      (clientLabels ["LEFT","LEFT"]) := by
  have hkeeps : ∀ s labels, ¬ BeginsWithKeyword s.att.enumLabels → ¬ BeginsWithKeyword labels →
      (∀ label ∈ labels, ',' ∉ label.toList) → KeepsLabels switchAttr s (clientLabels labels) := by
    intro s labels hs hl hc
    refine ⟨fun _ => hs,fun _ _ _ => ⟨fun h => absurd h hl,fun _ => hc⟩,fun _ hhead => ?_⟩
    exact absurd ⟨"",hhead,.inr (.inl rfl)⟩ hl
  have halong : Along (labelStep switchAttr) (fun s r => DatabaseWorks r.call ∧ KeepsLabels switchAttr s r) switchState
      [clientLabels ["LEFT","RIGHT"],clientLabels ["LEFT","LEFT"]] :=
    ⟨⟨database_works _,hkeeps _ _ (by decide) (by decide) (by decide)⟩,
      ⟨database_works _,hkeeps _ _ (by decide) (by decide) (by decide)⟩,trivial⟩
  exact labels_mirrored rfl switch_right halong _ _ (List.prefix_refl _)

/-- The user default is asked for and deleted from the database, where the class default stands before it; a label
with a comma is two labels. -/
theorem user_default_not_mirrored :
    (changeLabelsOf switchAttr switchState (clientLabels [""])).1.enumLabels = ["UP","DOWN"] ∧
      (startLabels switchAttr (labelStep switchAttr switchState (clientLabels [""])).db).1 = ["ON","OFF"] ∧
      ¬ RequestRight switchAttr switchState (clientLabels [""]) ∧
      (labelStep switchAttr switchState (clientLabels ["LEFT","RIGHT,MIDDLE"])).att.enumLabels =
        ["LEFT","RIGHT","MIDDLE"] ∧
      ¬ RequestRight switchAttr switchState (clientLabels ["LEFT","RIGHT,MIDDLE"]) := by
  refine ⟨by decide,by decide,fun h => ?_,by decide,fun h => ?_⟩
  · exact absurd h.after.mirrored (by decide)
  · exact absurd (h.number rfl trivial) (by decide)

end Samples

end CppTango.Device.Conf
