import CppTango.Device.Creation
import CppTango.Device.EventText

namespace CppTango.Device.Conf

open CppTango.Lib StrProps

variable {D : Doubles} {attr : AttrDesc} {name part text : String} {usr propList : List AttrProperty}

section Asks
variable (hnum : ¬ noNumber attr.dataType) (name part text)
include hnum

theorem readChange_cases :
    match readChange D attr name part with
    | .ok _ => (D.read part).2 = true
    | .error _ => ¬ (D.read part).2 = true := by
  unfold readChange
  by_cases hr : (D.read part).2 = true
  · rw [if_pos hr]
    split_ifs <;> simpa using hr
  · rw [if_neg hr]
    exact hr

theorem validateMin_cases :
    match validateMin D attr name part with
    | .ok v => Readable D part ∧ v.bringUsrDef = (asksUser part,asksUser part)
    | .error _ => ¬ Readable D part := by
  unfold validateMin Readable isKeyword asksUser
  dsimp only
  split_ifs with h1 h2 h3
  · obtain ⟨h2,h3⟩ := notSpecified_excludes h1
    exact ⟨.inl (.inl h1),by simp [h2,h3]⟩
  · exact ⟨.inl (.inr (.inr h2)),by simp [h2]⟩
  · exact ⟨.inl (.inr (.inl h3)),by simp [h3]⟩
  · have hr := readChange_cases (D := D) name part hnum
    cases hc : readChange D attr name part with
    | error e =>
      rw [hc] at hr
      simpa [Except.map,h1,h2,h3] using hr
    | ok r =>
      rw [hc] at hr
      simpa [Except.map,h1,h2,h3] using hr

theorem validateMax_cases (v : Validated D) :
    match validateMax D attr name part v with
    | .ok w => Readable D part ∧ w.bringUsrDef = (v.bringUsrDef.1,decide (part = ""))
    | .error _ => ¬ Readable D part := by
  unfold validateMax Readable isKeyword
  dsimp only
  split_ifs with h1 h2 h3
  · exact ⟨.inl (.inl h1),by simp [(notSpecified_excludes h1).2]⟩
  · exact ⟨.inl (.inr (.inr h2)),by simp [(nan_excludes h2).2.1]⟩
  · exact ⟨.inl (.inr (.inl h3)),by simp [h3]⟩
  · have hr := readChange_cases (D := D) name part hnum
    cases hc : readChange D attr name part with
    | error e =>
      rw [hc] at hr
      simpa [Except.map,h1,h2,h3] using hr
    | ok r =>
      rw [hc] at hr
      simpa [Except.map,h1,h2,h3] using hr

/-- A text that can be read gives thresholds, with the requests for the user default. -/
theorem validate_cases :
    match validateChangeProperties D attr name text with
    | .ok v => (v.bringUsrDef.1 || v.bringUsrDef.2) = true ↔ AsksUserDefault D text
    | .error _ => ¬ AsksUserDefault D text := by
  unfold validateChangeProperties AsksUserDefault
  dsimp only
  have hmin := validateMin_cases (D := D) name (splitComma text).1 hnum
  cases hv : validateMin D attr name (splitComma text).1 with
  | error e =>
    rw [hv] at hmin
    exact fun h => hmin h.1
  | ok v =>
    rw [hv] at hmin
    obtain ⟨hr,hb⟩ := hmin
    cases hc : (splitComma text).2 with
    | none => simp [hr,hb,asksUser]
    | some b =>
      have hmax := validateMax_cases (D := D) name b hnum v
      cases hw : validateMax D attr name b v with
      | error e =>
        rw [hw] at hmax
        simpa [hw] using fun _ h => absurd h hmax
      | ok w =>
        rw [hw] at hmax
        simp [hw,hmax.1,hmax.2,hr,hb,asksUser,or_assoc]

end Asks

section Defaults

theorem erased_eq_iff : erased text = text ↔ ',' ∉ text.toList := by
  unfold erased splitComma
  by_cases hc : ',' ∈ text.toList
  · rw [if_pos hc]
    simp only [Option.getD_some,hc,not_true,iff_false]
    -- what is left is shorter
    intro h
    have hlen := congrArg (List.length ∘ String.toList) h
    have hne : text.toList.dropWhile (fun c => c ≠ ',') ≠ [] := by
      intro hnil
      exact absurd (List.dropWhile_eq_nil_iff.mp hnil ',' hc) (by simp)
    have hle := (List.dropWhile_sublist (fun c => c ≠ ',') (l := text.toList)).length_le
    have hpos := List.length_pos_iff.mpr hne
    simp only [Function.comp,String.toList_ofList,List.length_drop] at hlen
    omega
  · rw [if_neg hc]
    simp [hc]

theorem propInList_eraseDefault {other : String} :
    propInList name (eraseDefault other usr) =
      if name = other then (propInList name usr).map erased else propInList name usr := by
  induction usr with
  | nil => simp [eraseDefault,propInList,atKey]
  | cons q l ih =>
    unfold eraseDefault
    unfold propInList at ih ⊢
    by_cases hq : q.name = other
    · rw [if_pos hq,atKey_cons,atKey_cons]
      by_cases hn : q.name = name
      · rw [if_pos hn,if_pos (hn.symm.trans hq),if_pos hn]
        rfl
      · rw [if_neg hn,if_neg (fun h => hn (hq.trans h.symm)),if_neg hn]
    · rw [if_neg hq,atKey_cons,atKey_cons]
      by_cases hn : q.name = name
      · rw [if_pos hn,if_neg (fun h => hq (hn.trans h)),if_pos hn]
      · rw [if_neg hn,ih,if_neg hn]

/-- A default stays when it has no comma. -/
theorem eraseDefault_eq (h : ∀ d, propInList name usr = some d → ',' ∉ d.toList) :
    eraseDefault name usr = usr := by
  induction usr with
  | nil => rfl
  | cons q l ih =>
    unfold eraseDefault
    unfold propInList at h ih
    rw [atKey_cons] at h
    by_cases hq : q.name = name
    · rw [if_pos hq] at h ⊢
      rw [erased_eq_iff.mpr (h q.value rfl)]
    · rw [if_neg hq] at h ⊢
      rw [ih h]

end Defaults

section Init
variable (D) (attr propList)

/-- The property asks for a user default that can be asked for. -/
def asks (p : ChangeProp) : Prop :=
  ¬ noNumber attr.dataType ∧ ∃ text, propInList p.name propList = some text ∧ AsksUserDefault D text

open Classical in
/-- What one property does to the user defaults. -/
theorem initChangeProp_defaults (p : ChangeProp) :
    (initChangeProp D attr propList usr p).2 = if asks D attr propList p then eraseDefault p.name usr else usr := by
  unfold initChangeProp asks
  cases ht : propInList p.name propList with
  | none => simp
  | some text =>
    by_cases hnum : noNumber attr.dataType
    · simp [hnum]
    · have hv := validate_cases (D := D) p.name text hnum
      dsimp only
      rw [if_neg hnum]
      cases hc : validateChangeProperties D attr p.name text with
      | error e =>
        rw [hc] at hv
        simp [hv]
      | ok v =>
        rw [hc] at hv
        dsimp only at hv ⊢
        by_cases hb : AsksUserDefault D text
        · rw [if_pos (hv.mpr hb),if_pos ⟨hnum,text,rfl,hb⟩]
          cases hd : validateDefault D attr p.name usr with
          | error e => rfl
          | ok d =>
            cases d with
            | some d => rfl
            | none =>
              refine (eraseDefault_eq fun d hp => ?_).symm
              unfold validateDefault at hd
              rw [hp] at hd
              cases hq : validateChangeProperties D attr p.name d <;> simp [Except.map,hq] at hd
        · rw [if_neg (fun h => hb (hv.mp h)),if_neg (by simpa [hnum] using hb)]

theorem name_inj {p q : ChangeProp} (h : p.name = q.name) : p = q := by
  cases p <;> cases q <;> first | rfl | exact absurd h (by decide)

open Classical in
/-- The user default of a property is changed by this property only. -/
theorem initChangeProp_default (p q : ChangeProp) :
    propInList p.name (initChangeProp D attr propList usr q).2 =
      if p = q ∧ asks D attr propList p then (propInList p.name usr).map erased else propInList p.name usr := by
  rw [initChangeProp_defaults]
  by_cases hq : asks D attr propList q
  · rw [if_pos hq,propInList_eraseDefault]
    by_cases hp : p = q
    · subst hp
      rw [if_pos rfl,if_pos ⟨rfl,hq⟩]
    · rw [if_neg (fun h => hp (name_inj h)),if_neg (fun h => hp h.1)]
  · rw [if_neg hq,if_neg]
    rintro ⟨rfl,h⟩
    exact hq h

open Classical in
/-- What a new device leaves of the user default of a property. -/
theorem initEventProp_defaults (p : ChangeProp) :
    propInList p.name (initEventProp D attr propList).2 =
      if asks D attr propList p then (propInList p.name attr.userDefaultProperties).map erased
      else propInList p.name attr.userDefaultProperties := by
  unfold initEventProp
  dsimp only
  rw [initChangeProp_default,initChangeProp_default,initChangeProp_default,initChangeProp_default]
  cases p <;> simp

variable {D attr propList}

theorem initEventProp_keeps (attr : AttrDesc)
    (h : ∀ p, asks D attr propList p →
      ∀ dflt, propInList (ChangeProp.name p) attr.userDefaultProperties = some dflt → ',' ∉ dflt.toList) :
    (initEventProp D attr propList).2 = attr.userDefaultProperties := by
  have hone : ∀ q, (initChangeProp D attr propList attr.userDefaultProperties q).2 = attr.userDefaultProperties := by
    intro q
    rw [initChangeProp_defaults]
    split
    next hq => exact eraseDefault_eq (h q hq)
    next => rfl
  unfold initEventProp
  dsimp only
  rw [hone,hone,hone,hone]

end Init

section Creations
variable {d : NewDevice}

/-- A device cuts a default when one of its properties asks for one with a comma. -/
theorem cutsDefault_iff :
    CutsDefault D attr d ↔ ∃ p : ChangeProp,
      asks D attr (addUserDefault (concat (devProp d) attr.classProperties) attr.userDefaultProperties) p ∧
        ∃ dflt, propInList p.name attr.userDefaultProperties = some dflt ∧ ',' ∈ dflt.toList := by
  unfold CutsDefault asks startProp
  constructor
  · rintro ⟨hnum,p,text,dflt,ht,ha,hd,hc⟩
    exact ⟨p,⟨hnum,text,ht,ha⟩,dflt,hd,hc⟩
  · rintro ⟨p,⟨hnum,text,ht,ha⟩,dflt,hd,hc⟩
    exact ⟨hnum,p,text,dflt,ht,ha,hd,hc⟩

/-- The user defaults stay exactly when the device cuts none. -/
theorem construct_keeps_iff :
    (construct D attr d).2 = attr.userDefaultProperties ↔ ¬ CutsDefault D attr d := by
  rw [cutsDefault_iff]
  constructor
  · rintro h ⟨p,ha,dflt,hd,hc⟩
    have hp := initEventProp_defaults D { attr with dName := d.name }
      (addUserDefault (concat (devProp d) attr.classProperties) attr.userDefaultProperties) p
    have hl : propInList p.name (construct D attr d).2 = some (erased dflt) := by
      exact hp.trans ((if_pos ha).trans (congrArg (Option.map erased) hd))
    rw [h,hd] at hl
    exact absurd hc (erased_eq_iff.mp (Option.some.inj hl).symm)
  · intro h
    exact initEventProp_keeps { attr with dName := d.name }
      fun p ha dflt hd hc => h ⟨p,ha,dflt,hd,hc⟩

theorem create_eq (h : (construct D attr d).2 = attr.userDefaultProperties) : create D attr d = attr := by
  unfold create
  rw [h]

theorem createAll_append (l : List NewDevice) :
    createAll D attr (l ++ [d]) = create D (createAll D attr l) d := by
  unfold createAll
  rw [List.foldl_append]
  rfl

/-- Only the user defaults change. -/
theorem createAll_only (l : List NewDevice) :
    createAll D attr l = { attr with userDefaultProperties := (createAll D attr l).userDefaultProperties } := by
  induction l generalizing attr with
  | nil => rfl
  | cons d l ih => exact @ih (create D attr d)

theorem createAll_keeps {l : List NewDevice} (h : ∀ d ∈ l, ¬ CutsDefault D attr d) : createAll D attr l = attr := by
  induction l with
  | nil => rfl
  | cons d l ih =>
    have hd : create D attr d = attr := create_eq (construct_keeps_iff.mpr (h d List.mem_cons_self))
    have hl : createAll D attr (d::l) = createAll D (create D attr d) l := rfl
    rw [hl,hd,ih fun e he => h e (List.mem_cons_of_mem _ he)]

theorem alone_iff {creations : List NewDevice} :
    Alone D attr creations ↔ ∀ d ∈ creations, ¬ CutsDefault D attr d := by
  constructor
  · intro h d hd
    obtain ⟨l,r,rfl⟩ := List.append_of_mem hd
    -- the defaults are untouched when the device is created
    have hl : createAll D attr l = attr := by
      rw [createAll_only]
      rcases List.eq_nil_or_concat l with rfl | ⟨l,e,rfl⟩
      · rfl
      · rw [List.concat_eq_append,(h l e ⟨d::r,by simp⟩).2]
    have hd := (h l d ⟨r,by simp⟩).2
    rw [createAll_append,hl] at hd
    exact construct_keeps_iff.mp hd
  · rintro h l d ⟨r,rfl⟩
    have hld : ∀ e ∈ l ++ [d], ¬ CutsDefault D attr e := fun e he => h e (List.mem_append_left _ he)
    rw [createAll_keeps hld,createAll_keeps fun e he => hld e (List.mem_append_left _ he)]
    exact ⟨rfl,rfl⟩

end Creations

section Levels
variable {cls : List DbProperty} {q : DbProperty} {d : NewDevice}

section Lookup
variable (attr) (c c' : List AttrProperty) {l l' : List AttrProperty} (h : ∀ name, propInList name l = propInList name l')
include h

/-- Properties are looked up by name, and the class properties are not used otherwise. -/
theorem initEventProp_congr :
    initEventProp D { attr with classProperties := c } l = initEventProp D { attr with classProperties := c' } l' := by
  have hone : ∀ usr p, initChangeProp D { attr with classProperties := c } l usr p =
      initChangeProp D { attr with classProperties := c' } l' usr p := by
    intro usr p
    unfold initChangeProp
    rw [h]
    rfl
  unfold initEventProp
  dsimp only
  rw [hone,hone,hone,hone]

theorem initEnumProp_congr :
    initEnumProp { attr with classProperties := c } l = initEnumProp { attr with classProperties := c' } l' := by
  unfold initEnumProp
  rw [h]
  rfl

end Lookup

theorem construct_congr (attr : AttrDesc) {c c' : List AttrProperty} {d' : NewDevice} (hd : d.name = d'.name)
    (h : ∀ name, startProp { attr with classProperties := c } name (devProp d) =
      startProp { attr with classProperties := c' } name (devProp d')) :
    construct D { attr with classProperties := c } d = construct D { attr with classProperties := c' } d' := by
  have hev := initEventProp_congr (D := D) { attr with dName := d'.name } c c' h
  have hen := initEnumProp_congr { attr with dName := d'.name } c c' h
  unfold construct
  rw [hd]
  dsimp only at hev hen ⊢
  rw [hev,hen]

theorem together_toList {sep : String} :
    (q.together sep).value.toList = q.first.toList ++ q.rest.flatMap (fun v => sep.toList ++ v.toList) := by
  obtain ⟨name,first,rest⟩ := q
  unfold DbProperty.together
  dsimp only
  induction rest generalizing first with
  | nil => simp
  | cons v vs ih =>
    rw [List.foldl_cons,ih]
    simp [List.flatMap_cons]

/-- The two ways to put the strings together agree on a single string only. -/
theorem together_eq_iff : (q.together " ").value = (q.together ",").value ↔ q.rest = [] := by
  rw [← String.toList_inj,together_toList,together_toList,List.append_cancel_left_eq]
  cases q.rest with
  | nil => simp
  | cons v vs =>
    refine iff_of_false (fun h => ?_) (List.cons_ne_nil v vs)
    have hhead := congrArg List.head? h
    exact absurd hhead (by simp)

theorem propInList_together {sep : String} {l : List DbProperty} :
    propInList name ((q::l).map (DbProperty.together sep)) =
      if q.name = name then some (q.together sep).value else propInList name (l.map (DbProperty.together sep)) := by
  unfold propInList
  rw [List.map_cons,atKey_cons]
  split
  next h => exact (if_pos h).symm
  next h => exact (if_neg h).symm

section Own
variable (hd : q.name ∉ d.props.map DbProperty.name)
include hd

theorem not_own {sep : String} : propInList q.name (d.props.map (DbProperty.together sep)) = none := by
  unfold propInList atKey
  rw [Option.map_eq_none_iff,List.find?_eq_none]
  intro p hp
  obtain ⟨r,hr,rfl⟩ := List.mem_map.mp hp
  rw [decide_eq_true_eq]
  exact fun h => hd (List.mem_map.mpr ⟨r,hr,h⟩)

variable (attr name cls) in
/-- What a start finds for a list given at class level, and for one given at device level. -/
theorem startProp_levels :
    startProp (initClassAttribute attr (q::cls)) name (devProp d) =
        (if q.name = name then some (q.together " ").value
        else startProp (initClassAttribute attr cls) name (devProp d)) ∧
      startProp (initClassAttribute attr cls) name (devProp { d with props := q::d.props }) =
        (if q.name = name then some (q.together ",").value
        else startProp (initClassAttribute attr cls) name (devProp d)) := by
  simp only [startProp_eq,defaultProp,initClassAttribute,devProp,propInList_together]
  by_cases hn : q.name = name
  · subst hn
    rw [not_own hd]
    simp
  · simp [hn]

/-- One string has the same effect at both levels. -/
theorem atBothLevels (hr : q.rest = []) : AtBothLevels D attr cls q d := by
  refine construct_congr attr rfl fun name => ?_
  obtain ⟨h1,h2⟩ := startProp_levels attr name cls hd
  refine h1.trans (Eq.trans ?_ h2.symm)
  rw [together_eq_iff.mpr hr]

theorem atBothLevels_labels (he : attr.dataType = .devEnum) (hq : q.name = "enum_labels") :
    AtBothLevels D attr cls q d ↔ q.rest = [] := by
  refine ⟨fun h => ?_,atBothLevels hd⟩
  have hmade : ∀ {a : AttrDesc} {d : NewDevice} {labs : String}, a.dataType = .devEnum →
      startProp a "enum_labels" (devProp d) = some labs → (construct D a d).1.labels.1 = splitLabels labs := by
    intro a d labs ha hl
    unfold construct
    dsimp only
    rw [if_pos ha]
    unfold initEnumProp
    unfold startProp at hl
    rw [hl]
    rfl
  obtain ⟨h1,h2⟩ := startProp_levels attr "enum_labels" cls hd
  rw [if_pos hq] at h1 h2
  have hl := congrArg (fun r => r.1.labels.1) h
  rw [hmade (a := initClassAttribute attr (q::cls)) he h1,hmade (a := initClassAttribute attr cls) he h2] at hl
  exact together_eq_iff.mp (splitLabels_inj hl)

end Own

end Levels

/-- The devices start on their own exactly when none of them cuts a default; a list given at class level has
the effect it has at device level when it is one string, and for the labels only then. -/
theorem devices_start_alone (attr : AttrDesc) (cls : List DbProperty) :
    (∀ creations, Alone D (initClassAttribute attr cls) creations ↔
        ∀ d ∈ creations, ¬ CutsDefault D (initClassAttribute attr cls) d) ∧
      ∀ q d, q.name ∉ d.props.map DbProperty.name →
        (q.rest = [] → AtBothLevels D attr cls q d) ∧
          (attr.dataType = .devEnum → q.name = "enum_labels" → (AtBothLevels D attr cls q d ↔ q.rest = [])) :=
  ⟨fun _ => alone_iff,fun _ _ hd => ⟨atBothLevels hd,fun he hq => atBothLevels_labels hd he hq⟩⟩

section Samples

/-- An attribute with a user default of two thresholds. -/
def pairAttr : AttrDesc := { sampleAttr with userDefaultProperties := [⟨"rel_change","5,10"⟩] }

/-- A device that asks for the user default, and one without properties. -/
def askingDevice : NewDevice := ⟨"dev/asking/1",[⟨"rel_change","NaN",[]⟩]⟩

def plainDevice : NewDevice := ⟨"dev/plain/1",[]⟩

theorem plain_devices_alone :
    Alone wholeNumbers (initClassAttribute pairAttr []) [plainDevice,plainDevice] ∧
      AtBothLevels wholeNumbers pairAttr [] ⟨"abs_change","7",[]⟩ plainDevice := by
  have h := devices_start_alone (D := wholeNumbers) pairAttr []
  refine ⟨(h.1 _).mpr ?_,(h.2 _ plainDevice List.not_mem_nil).1 rfl⟩
  have hplain : ¬ CutsDefault wholeNumbers (initClassAttribute pairAttr []) plainDevice := by
    rintro ⟨-,p,text,-,ht,⟨-,-,ha⟩,-⟩
    cases p with
    | relChange =>
      obtain rfl := Option.some.inj ht
      exact absurd ha (by decide)
    | absChange | archiveRelChange | archiveAbsChange => cases ht
  intro d hd
  obtain rfl : d = plainDevice := by simpa using hd
  exact hplain

def Made.relChange (m : Made wholeNumbers) : Int × Int := (m.change .relChange).prop

/-- A device that asks for the user default takes the first part of it from all devices that follow, and a pair
given at class level is no pair. -/
theorem asking_device_cuts :
    (construct wholeNumbers (createAll wholeNumbers pairAttr [askingDevice]) plainDevice).1.relChange = (-10,10) ∧
      (construct wholeNumbers pairAttr plainDevice).1.relChange = (-5,10) ∧
      (createAll wholeNumbers pairAttr [askingDevice]).userDefaultProperties = [⟨"rel_change","10"⟩] ∧
      ¬ Alone wholeNumbers pairAttr [askingDevice,plainDevice] ∧
      ¬ AtBothLevels wholeNumbers sampleAttr [] ⟨"rel_change","5",["10"]⟩ plainDevice := by
  have h1 : (construct wholeNumbers (createAll wholeNumbers pairAttr [askingDevice]) plainDevice).1.relChange =
      (-10,10) := by decide
  have h2 : (construct wholeNumbers pairAttr plainDevice).1.relChange = (-5,10) := by decide
  refine ⟨h1,h2,by decide,fun h => ?_,fun h => ?_⟩
  · have hc := congrArg Made.relChange (h [askingDevice] plainDevice (by simp)).1
    exact absurd (h1.symm.trans (hc.trans h2)) (by decide)
  · have hc := congrArg (fun r => r.1.relChange) h
    exact absurd hc (by decide)

end Samples

end CppTango.Device.Conf
