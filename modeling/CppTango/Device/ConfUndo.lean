import CppTango.Device.ConfSpec

namespace CppTango.Device.Conf

open CppTango.Lib StrProps

variable {D : Doubles} {attr : AttrDesc}

section Looks
variable {s t : AttrState D}

/-- Two states look the same for an item: in the configuration and in the flags. -/
def looks (i : Item) (s t : AttrState D) : Prop :=
  match i with
  | .str p => s.str p = t.str p
  | .range p => (s.range p).str = (t.range p).str ∧ (s.range p).checkIt = (t.range p).checkIt
  | .rds => rdsTexts s.rds = rdsTexts t.rds ∧ s.rds.rds = t.rds.rds
  | .change p => changeText (s.change p) = changeText (t.change p)
  | .period p => periodText p (s.period p) = periodText p (t.period p)
  | .hardCoded | .hardCodedAgain | .level => True

theorem looks_equivalence (i : Item) : Equivalence (looks (D := D) i) := by
  cases i with
  | hardCoded | hardCodedAgain | level =>
    exact ⟨fun _ => trivial,fun _ => trivial,fun _ _ => trivial⟩
  | str p | change p | period p => exact ⟨fun _ => rfl,Eq.symm,Eq.trans⟩
  | range p | rds =>
    exact ⟨fun _ => ⟨rfl,rfl⟩,fun h => ⟨h.1.symm,h.2.symm⟩,fun h g => ⟨h.1.trans g.1,h.2.trans g.2⟩⟩

theorem looks_of_same {i : Item} (h : sameItem i s t) : looks i s t := by
  cases i with
  | hardCoded | hardCodedAgain | level => trivial
  | str p => exact h
  | change p => exact congrArg changeText h
  | period p => exact congrArg (periodText p) h
  | range p => exact ⟨congrArg RangeConf.str h,congrArg RangeConf.checkIt h⟩
  | rds => exact ⟨congrArg rdsTexts h,congrArg RdsConf.rds h⟩

theorem looks_config (h : ∀ i, looks i s t) :
    getProperties attr s = getProperties attr t ∧ alarmConf s = alarmConf t := by
  constructor
  · unfold getProperties
    have hstr : s.str = t.str := funext (fun p => h (.str p))
    have hrange : (fun p => (s.range p).str) = (fun p => (t.range p).str) :=
      funext (fun p => (h (.range p)).1)
    have hchange : (fun p => changeText (s.change p)) = (fun p => changeText (t.change p)) :=
      funext (fun p => h (.change p))
    have hperiod : (fun p => periodText p (s.period p)) = (fun p => periodText p (t.period p)) :=
      funext (fun p => h (.period p))
    rw [hstr,hrange,(h .rds).1,hchange,hperiod]
  · unfold alarmConf
    rw [(h (.range .minAlarm)).2,(h (.range .maxAlarm)).2,(h (.range .minWarning)).2,
      (h (.range .maxWarning)).2,(h .rds).2]

end Looks

section Kept
variable (attr)

/-- The text of a string property is no keyword that stands for something else. -/
def strKept (p : StrProp) (text : String) : Prop :=
  let user := (attr.userDef p).getD (notSpec attr.toAttr p)
  (sameNoCase text "Not specified" → text = notSpec attr.toAttr p) ∧
    (text = "" → user = "") ∧ (sameNoCase text "NaN" → (attr.classDef p).getD user = text)

/-- The default a bound is shown as, when the numbers are the same or when the double on the stack
happens to be it, has the text of the bound. -/
def defaultKept (p : RangeProp) (stack : D.Dbl × D.Dbl) (text : String) : Prop :=
  ∀ d, (p.classDef attr).or (p.userDef attr) = some d →
    D.eq (D.read text).1 (D.read d).1 = true ∨
      D.eq (D.read text).1 (stackDouble (p.classDef attr) stack) = true → d = text

/-- A bound that is not specified has no flag; one that is has it, and its text is the number as the
type prints it, and the memorized value is within. -/
def rangeKept (mem : Memorized D) (stack : D.Dbl × D.Dbl) (p : RangeProp) (r : RangeConf D) : Prop :=
  r.str = "Not specified" ∧ r.checkIt = false ∨
    r.checkIt = true ∧ ¬ noRange attr.dataType ∧ (D.read r.str).2 = true ∧
      typedText D attr.dataType r.str (D.read r.str).1 = r.str ∧
      checkMemorized attr p mem (castTo D attr.dataType (D.read r.str).1) = none ∧
      defaultKept attr p stack r.str

/-- The RDS alarm: its texts are the numbers as they are printed, and the flag is set when none of
the two is missing. -/
structure RdsKept (r : RdsConf D) : Prop where
  val : r.deltaValStr = "Not specified" ∨
    (D.read r.deltaValStr).2 = true ∧
      typedText D attr.dataType r.deltaValStr (D.read r.deltaValStr).1 = r.deltaValStr
  db : ∃ v, deltaValDb D attr r.deltaValStr = .ok v
  time : r.deltaT = 0 ∨
    (D.read r.deltaTStr).2 = true ∧ D.cast .devLong64 (D.read r.deltaTStr).1 ≠ 0 ∧
      intString (D.cast .devLong64 (D.read r.deltaTStr).1) = r.deltaTStr
  flag : r.rds = (decide (r.deltaT ≠ 0) && decide (r.deltaValStr ≠ "Not specified"))

/-- The thresholds are read back, from the text that shows them, as thresholds with that text. -/
def changeKept (p : ChangeProp) (v : D.Dbl × D.Dbl) : Prop :=
  ∃ w, validateChangeProperties D attr p.name (changeText v) = .ok w ∧
    w.bringUsrDef = (false,false) ∧ w.bringClassDef = (false,false) ∧ changeText w.prop = changeText v

/-- What a configuration has for an item gives the item again. -/
def itemKept (mem : Memorized D) (stack : RangeProp → D.Dbl × D.Dbl) (s : AttrState D) : Item → Prop
  | .hardCoded | .hardCodedAgain | .level | .period _ => True
  | .str p => strKept attr p (s.str p)
  | .range p => rangeKept attr mem (stack p) p (s.range p)
  | .rds => RdsKept attr s.rds
  | .change p => changeKept attr p (s.change p)

end Kept

variable {mem : Memorized D}

section Bounds
variable {p : RangeProp} {stack : D.Dbl × D.Dbl} {text : String}

theorem setOneStrProp_kept {p : StrProp} (h : strKept attr p text) (old : String) :
    (setOneStrProp attr.toAttr p text old).1 = text := by
  obtain ⟨h1,h2,h3⟩ := h
  unfold setOneStrProp
  split
  next hk => exact (h1 hk).symm
  next =>
    split
    next hk => exact (h2 hk).trans hk.symm
    next =>
      split
      next hk => exact h3 hk
      next => rfl

theorem not_keyword_of_read (h : (D.read text).2 = true) : ¬ isKeyword text := by
  intro hk
  rw [D.read_keyword text hk] at h
  cases h

theorem not_notSpecified_of_read (h : (D.read text).2 = true) : text ≠ "Not specified" := by
  rintro rfl
  exact not_keyword_of_read h (.inl rfl)

theorem askedText_number (h : (D.read text).2 = true) : askedText attr p text = text := by
  have hk := not_keyword_of_read h
  unfold askedText
  rw [if_neg (fun h1 => hk (.inl h1)),if_neg (fun h2 => hk (.inr (.inl h2))),
    if_neg (fun h3 => hk (.inr (.inr h3)))]

theorem shownText_kept (h : defaultKept attr p stack text) (c : Chosen) :
    shownText (p.classDef attr) (p.userDef attr) c stack text = text := by
  rcases shownText_cases (p.classDef attr) (p.userDef attr) stack c text with he | ⟨d,hdef,he,heq⟩
  · exact he
  · rw [he]
    cases hr : defaultRead (p.classDef attr) c with
    | true =>
      rw [hr,if_pos rfl] at heq
      exact h d hdef (.inl heq)
    | false =>
      rw [hr,if_neg Bool.false_ne_true] at heq
      exact h d hdef (.inr heq)

theorem storeInDb_number (h : (D.read text).2 = true) (store : Store) :
    ∃ l, storeInDb D attr p text store = .ok l := by
  cases store with
  | nothing | notSpecified | userDefault | delete => exact ⟨_,rfl⟩
  | confVal =>
    dsimp only [storeInDb]
    rw [if_pos h]
    exact ⟨_,rfl⟩

theorem notSpecified_self : sameNoCase "Not specified" "Not specified" := rfl

theorem storeInDb_notSpecified (old : String) :
    ∃ l, storeInDb D attr p "Not specified" (chooseAlarm D attr p "Not specified" old).store = .ok l := by
  unfold chooseAlarm
  dsimp only
  rw [if_pos notSpecified_self]
  dsimp only
  split
  next => split <;> exact ⟨_,rfl⟩
  next => exact ⟨_,rfl⟩

/-- A bound is set again to what it was. -/
theorem setOneAlarmProp_kept {r : RangeConf D} (h : rangeKept attr mem stack p r) (s : RangeConf D) :
    (∃ l, (setOneAlarmProp attr p mem stack r.str s).2 = .ok l) ∧
      (setOneAlarmProp attr p mem stack r.str s).1.str = r.str ∧
      (setOneAlarmProp attr p mem stack r.str s).1.checkIt = r.checkIt := by
  unfold setOneAlarmProp
  rcases h with ⟨ht,hc⟩ | ⟨hc,ht,hr,htext,hm,hd⟩
  · have ha : askedText attr p "Not specified" = "Not specified" := if_pos rfl
    rw [ht,hc,if_neg (fun hn => hn.2 (.inl rfl))]
    dsimp only
    rw [chooseAlarm_str,if_pos ha]
    exact ⟨storeInDb_notSpecified s.str,rfl,rfl⟩
  · have hne : askedText attr p r.str ≠ "Not specified" := by
      rw [askedText_number hr]
      exact not_notSpecified_of_read hr
    rw [if_neg (fun hn => ht hn.1)]
    dsimp only
    rw [chooseAlarm_str,if_neg hne,askedText_number hr]
    unfold convertPropValue
    rw [if_pos hr,htext]
    dsimp only
    rw [hm]
    exact ⟨storeInDb_number hr _,shownText_kept hd _,hc.symm⟩

end Bounds

section Rds
variable {r s : RdsConf D}

theorem setDeltaVal_kept (hn : ¬ noNumber attr.dataType) (h : RdsKept attr r) :
    ∃ v, setDeltaVal attr r.deltaValStr s =
      ({ s with deltaValStr := r.deltaValStr,deltaVal := v },.ok (r.deltaValStr ≠ "Not specified")) := by
  unfold setDeltaVal
  rcases h.val with ht | ⟨hr,htext⟩
  · rw [ht,chooseRds_library notSpecified_self]
    exact ⟨s.deltaVal,rfl⟩
  · have hk := not_keyword_of_read hr
    have hne := not_notSpecified_of_read hr
    rw [chooseRds_number (fun h1 => hk (.inl h1)) hk]
    dsimp only
    rw [if_neg hne,if_neg hn]
    unfold convertPropValue
    rw [if_pos hr,htext]
    exact ⟨castTo D attr.dataType (D.read r.deltaValStr).1,by simp [shownDefault,hne]⟩

/-- The text `get_properties` has for `delta_t`. -/
theorem deltaT_text (r : RdsConf D) :
    (rdsTexts r).deltaT = if r.deltaT = 0 then "Not specified" else r.deltaTStr := rfl

theorem intString_not_zero {n : Int} (hn : n ≠ 0) :
    intString n ≠ "0" ∧ ¬ sameNoCase (intString n) "0" ∧ ¬ sameNoCase (intString n) "0.0" := by
  have h0 : intString n ≠ "0" := by
    intro he
    have hz : numeral "0" = some 0 := by decide
    exact hn (Option.some.inj ((numeral_intString n).symm.trans (he ▸ hz)))
  have hlist : ∀ word : String, lowerName word = word.toList → sameNoCase (intString n) word →
      intString n = word := by
    intro word hw hs
    apply String.toList_injective
    rw [← lower_numeral (numeral_intString n),← hw]
    exact hs
  refine ⟨h0,fun hs => h0 (hlist "0" (by decide) hs),fun hs => ?_⟩
  have hdot : numeral "0.0" = none := by decide
  cases (numeral_intString n).symm.trans (hlist "0.0" (by decide) hs ▸ hdot)

theorem setDeltaT_kept (hn : ¬ noNumber attr.dataType) (h : RdsKept attr r) :
    ∃ x n, setDeltaT attr (rdsTexts r).deltaT s =
        ({ s with deltaTStr := x,deltaT := n },.ok (r.deltaT ≠ 0)) ∧
      (if n = 0 then "Not specified" else x) = (rdsTexts r).deltaT := by
  rw [deltaT_text]
  unfold setDeltaT
  by_cases h0 : r.deltaT = 0
  · rw [if_pos h0,chooseRds_library (.inl notSpecified_self)]
    exact ⟨"0",0,by simp [h0,shownDefault],rfl⟩
  · obtain ⟨hr,hz,htext⟩ := h.time.resolve_left h0
    have hk := not_keyword_of_read hr
    obtain ⟨hne,hs0,hs00⟩ := intString_not_zero hz
    rw [htext] at hne hs0 hs00
    rw [if_neg h0,chooseRds_number (fun hl => hl.elim (fun h1 => hk (.inl h1)) (fun hl => hl.elim hs0 hs00)) hk]
    dsimp only
    rw [if_neg hne,if_neg hn,if_pos hr,htext]
    exact ⟨r.deltaTStr,D.cast .devLong64 (D.read r.deltaTStr).1,by simp [h0,shownDefault],if_neg hz⟩

theorem deltaTDb_kept (hn : ¬ noNumber attr.dataType) (h : RdsKept attr r) :
    ∃ v, deltaTDb D attr (rdsTexts r).deltaT = .ok v := by
  rw [deltaT_text]
  unfold deltaTDb
  by_cases h0 : r.deltaT = 0
  · rw [if_pos h0]
    cases propInList "delta_t" attr.classProperties with
    | some cls =>
      dsimp only
      split
      next => exact ⟨_,rfl⟩
      next => exact ⟨"0",rfl⟩
    | none =>
      cases propInList "delta_t" attr.userDefaultProperties with
      | some user =>
        dsimp only
        split
        next => exact ⟨_,rfl⟩
        next => exact ⟨"0",rfl⟩
      | none => exact ⟨"0",rfl⟩
  · obtain ⟨hr,-⟩ := h.time.resolve_left h0
    rw [if_neg h0,if_neg hn,if_pos hr]
    dsimp only
    repeat' split
    all_goals exact ⟨_,rfl⟩

theorem setRdsPropDb_ok {conf : RdsTexts} (hv : ∃ v, deltaValDb D attr conf.deltaVal = .ok v)
    (ht : ∃ v, deltaTDb D attr conf.deltaT = .ok v) : ∃ l, setRdsPropDb D attr conf = .ok l := by
  obtain ⟨v,hv⟩ := hv
  obtain ⟨t,ht⟩ := ht
  unfold setRdsPropDb
  rw [hv,ht]
  dsimp only
  repeat' split
  all_goals exact ⟨_,rfl⟩

/-- The RDS alarm is set again to what it was. -/
theorem setRdsProp_kept (hn : ¬ noNumber attr.dataType) (h : RdsKept attr r) (s : RdsConf D) :
    (∃ l, (setRdsProp attr (rdsTexts r) s).2 = .ok l) ∧
      rdsTexts (setRdsProp attr (rdsTexts r) s).1 = rdsTexts r ∧
      (setRdsProp attr (rdsTexts r) s).1.rds = r.rds := by
  obtain ⟨v,hv⟩ := setDeltaVal_kept (s := s) hn h
  obtain ⟨x,n,ht,htext⟩ := setDeltaT_kept (s := { s with deltaValStr := r.deltaValStr,deltaVal := v }) hn h
  have hdb : ∃ l, setRdsPropDb D attr (rdsTexts r) = .ok l := setRdsPropDb_ok h.db (deltaTDb_kept hn h)
  have hval : (rdsTexts r).deltaVal = r.deltaValStr := rfl
  unfold setRdsProp setRdsPropVal
  rw [hval,hv]
  dsimp only
  rw [ht]
  dsimp only
  refine ⟨?_,?_,h.flag.symm⟩
  · split
    next => exact hdb
    next => exact ⟨[],rfl⟩
  · have hsame : (rdsTexts r) = ⟨r.deltaValStr,(rdsTexts r).deltaT⟩ := rfl
    rw [hsame,← htext]
    rfl

end Rds

section Periods
variable {p : PeriodProp}

theorem intString_injective {a b : Int} (h : intString a = intString b) : a = b :=
  Option.some.inj ((numeral_intString a).symm.trans (h ▸ numeral_intString b))

theorem sameNoCase_intString {a b : Int} (h : sameNoCase (intString a) (intString b)) : a = b := by
  refine intString_injective (String.toList_injective ?_)
  rw [← lower_numeral (numeral_intString a),← lower_numeral (numeral_intString b)]
  exact h

theorem readPeriod_intString (n : Int32) : readPeriod D attr p (intString n.toInt) = .ok n := by
  have hlo := n.le_toInt
  have hhi := n.toInt_lt
  obtain ⟨hr,hi⟩ := D.read_numeral _ _ (numeral_intString n.toInt) (by omega)
  have hc := D.cast_isInt .devLong _ _ hi ⟨_,rfl,hlo,hhi⟩
  unfold readPeriod
  rw [if_pos hr,hc,Int32.ofInt_toInt]

/-- A period is set again from the text that shows it. -/
theorem periodVal_text (n : Int32) :
    ∃ m, periodVal D attr p (periodText p n) = .ok m ∧ periodText p m = periodText p n := by
  have hnum : p.isLibrary (intString n.toInt) ∨
      periodVal D attr p (intString n.toInt) = .ok n := by
    by_cases hl : p.isLibrary (intString n.toInt)
    · exact .inl hl
    · right
      have hk := numeral_not_keyword (numeral_intString n.toInt)
      unfold periodVal
      rw [if_neg hl,if_neg (fun h3 => hk (.inr (.inr h3))),if_neg (fun h2 => hk (.inr (.inl h2)))]
      exact readPeriod_intString n
  unfold periodText
  by_cases hm : n.toInt = intMax
  · rw [if_pos hm]
    cases p with
    | eventPeriod => exact ⟨1000,rfl,rfl⟩
    | archivePeriod => exact ⟨PeriodProp.archivePeriod.default,rfl,rfl⟩
  · rw [if_neg hm]
    rcases hnum with hl | hv
    · refine ⟨p.default,if_pos hl,?_⟩
      have hk := numeral_not_keyword (numeral_intString n.toInt)
      have hd : n.toInt = p.default.toInt :=
        sameNoCase_intString (hl.resolve_left (fun h1 => hk (.inl h1)))
      rw [if_neg (hd ▸ hm),hd]
    · exact ⟨n,hv,by rw [if_neg hm]⟩

theorem periodDb_text (n : Int32) : ∃ l, periodDb D attr p (periodText p n) = .ok l := by
  have hnum : ∀ m : Int32, ∃ l, periodDb D attr p (intString m.toInt) = .ok l := by
    intro m
    have hk := numeral_not_keyword (numeral_intString m.toInt)
    unfold periodDb
    split
    next =>
      rw [if_neg (fun h1 => hk (.inl h1)),if_neg (fun h2 => hk (.inr (.inl h2))),readPeriod_intString]
      exact ⟨_,rfl⟩
    next => exact ⟨_,rfl⟩
  unfold periodText
  split
  next =>
    cases p with
    | eventPeriod => exact hnum 1000
    | archivePeriod =>
      dsimp only
      unfold periodDb
      split
      next => exact ⟨_,rfl⟩
      next => exact ⟨_,rfl⟩
  next => exact hnum n

variable (D attr p) in
theorem setOneEventPeriod_kept (n old : Int32) :
    (∃ l, (setOneEventPeriod D attr p (periodText p n) old).2 = .ok l) ∧
      periodText p (setOneEventPeriod D attr p (periodText p n) old).1 = periodText p n := by
  obtain ⟨m,hm,ht⟩ := periodVal_text n
  unfold setOneEventPeriod
  rw [hm]
  dsimp only
  refine ⟨?_,ht⟩
  split
  next => exact ⟨[],rfl⟩
  next => exact periodDb_text n

end Periods

section Items
variable {stack : RangeProp → D.Dbl × D.Dbl} {s : AttrState D}

theorem setStr_restores {p : StrProp} (h : strKept attr p (s.str p)) :
    Restores looks s ⟨.str p,setStr attr p (s.str p)⟩ := by
  intro t
  refine ⟨⟨_,rfl⟩,?_⟩
  exact (Function.update_self ..).trans (setOneStrProp_kept h _)

theorem setRange_restores {p : RangeProp} (h : rangeKept attr mem (stack p) p (s.range p)) :
    Restores looks s ⟨.range p,setRange attr mem stack p (s.range p).str⟩ := by
  intro t
  obtain ⟨⟨l,hl⟩,hstr,hflag⟩ := setOneAlarmProp_kept h (t.range p)
  have hself : ((setRange attr mem stack p (s.range p).str) t).1.range p =
      (setOneAlarmProp attr p mem (stack p) (s.range p).str (t.range p)).1 := Function.update_self ..
  refine ⟨⟨_,congrArg (Except.map _) hl⟩,?_⟩
  exact ⟨(congrArg RangeConf.str hself).trans hstr,(congrArg RangeConf.checkIt hself).trans hflag⟩

theorem setRds_restores (hn : ¬ noNumber attr.dataType) (h : RdsKept attr s.rds) :
    Restores looks s ⟨.rds,setRds attr (rdsTexts s.rds)⟩ :=
  fun t => setRdsProp_kept hn h t.rds

theorem setPeriod_restores (p : PeriodProp) :
    Restores looks s ⟨.period p,setPeriod attr p (periodText p (s.period p))⟩ := by
  intro t
  obtain ⟨hl,ht⟩ := setOneEventPeriod_kept D attr p (s.period p) (t.period p)
  exact ⟨hl,(congrArg (periodText p) (Function.update_self ..)).trans ht⟩

/-- Thresholds without a request for a default are taken as they are. -/
theorem selectValue_own (cls usr : Option D.Dbl) (x : D.Dbl) : selectValue cls usr false false x = x := by
  cases cls <;> cases usr <;> rfl

theorem setChange_refuses {p : ChangeProp} {conf : String}
    (h : ∀ old : D.Dbl × D.Dbl, ∃ e, setOneEventProp attr p conf old = (old,.error e)) :
    Refuses looks ⟨.change p,setChange (D := D) attr p conf⟩ := by
  intro t
  obtain ⟨e,he⟩ := h (t.change p)
  refine ⟨⟨e,congrArg Prod.snd he⟩,?_⟩
  exact congrArg changeText ((Function.update_self ..).trans (congrArg Prod.fst he))

/-- Either a default of a change property is refused, whatever is set, or its thresholds are set
again. -/
theorem setChange_undoes {p : ChangeProp} (conf : String) (h : changeKept attr p (s.change p)) :
    (⟨.change p,setChange attr p conf,setChange attr p (changeText (s.change p))⟩ :
      Paired Item (AttrState D) (AttPropDb D) DevErrorList).Undoes looks s := by
  have huser : ∀ (text : String) (e : DevErrorList),
      validateDefault D attr p.name attr.userDefaultProperties = .error e →
        Refuses looks ⟨.change p,setChange (D := D) attr p text⟩ := by
    intro text e he
    refine setChange_refuses (fun old => ⟨e,?_⟩)
    unfold setOneEventProp
    rw [he]
  have hclass : ∀ (text : String) (e : DevErrorList) (u : Option (D.Dbl × D.Dbl)),
      validateDefault D attr p.name attr.userDefaultProperties = .ok u →
      validateDefault D attr p.name attr.classProperties = .error e →
        Refuses looks ⟨.change p,setChange (D := D) attr p text⟩ := by
    intro text e u hu he
    refine setChange_refuses (fun old => ⟨e,?_⟩)
    unfold setOneEventProp
    rw [hu,he]
  cases hu : validateDefault D attr p.name attr.userDefaultProperties with
  | error e => exact .inr ⟨huser _ e hu,huser _ e hu⟩
  | ok u =>
    cases hc : validateDefault D attr p.name attr.classProperties with
    | error e => exact .inr ⟨hclass _ e u hu hc,hclass _ e u hu hc⟩
    | ok c =>
      obtain ⟨w,hw,hbu,hbc,htext⟩ := h
      refine .inl (fun t => ?_)
      have hset : ∃ l, setOneEventProp attr p (changeText (s.change p)) (t.change p) = (w.prop,.ok l) := by
        unfold setOneEventProp
        rw [hu,hc,hw]
        simp only [hbu,hbc,selectValue_own]
        exact ⟨_,rfl⟩
      obtain ⟨l,hl⟩ := hset
      refine ⟨⟨l,congrArg Prod.snd hl⟩,?_⟩
      have hself := Function.update_self p
        (setOneEventProp attr p (changeText (s.change p)) (t.change p)).1 t.change
      exact (congrArg changeText (hself.trans (congrArg Prod.fst hl))).trans htext

theorem checkHardCoded_own (s : AttrState D) :
    checkHardCodedProperties attr (getProperties attr s) = none := by
  simp [checkHardCodedProperties,getProperties]

theorem checkOnly_restores (i : Item) (h : ∀ t t' : AttrState D, looks i t t') :
    Restores looks s ⟨i,checkOnly none⟩ := fun t => ⟨⟨[],rfl⟩,h t s⟩

end Items

end CppTango.Device.Conf
