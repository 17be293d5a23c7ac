import CppTango.Device.StrProps

namespace CppTango.Device.StrProps

open CppTango.Lib

section Lookup

theorem propInList_append (n : String) (l xs : List AttrProperty) :
    propInList n (l ++ xs) = (propInList n l).or (propInList n xs) := by
  unfold propInList
  rw [atKey_append]
  cases atKey AttrProperty.name n l <;> rfl

theorem propInList_put (n name value : String) (db : List AttrProperty) :
    propInList n (putProperty db name value) = if n = name then some value else propInList n db := by
  unfold putProperty
  rw [propInList_append]
  unfold propInList
  rw [atKey_without,atKey_singleton]
  by_cases h : n = name
  · rw [if_pos h,if_pos h.symm,if_pos h]
    rfl
  · rw [if_neg h,if_neg (Ne.symm h),if_neg h]
    simp

theorem propInList_delete (n name : String) (db : List AttrProperty) :
    propInList n (without AttrProperty.name name db) =
      if n = name then none else propInList n db := by
  unfold propInList
  rw [atKey_without]
  split <;> rfl

/-- What is to be done for a property. -/
def actionOf (n : String) (vDb : List AttPropDb) : Option DbAction :=
  (atKey AttPropDb.name n vDb).map AttPropDb.dba

/-- What is found under a name once its action is carried out. -/
def after (action : Option DbAction) (old : Option String) : Option String :=
  match action with
  | some (.upd v) => some v
  | some .del => none
  | none => old

theorem actionOf_cons (n : String) (a : AttPropDb) (vDb : List AttPropDb) :
    actionOf n (a::vDb) = if a.name = n then some a.dba else actionOf n vDb := by
  unfold actionOf
  rw [atKey_cons]
  split <;> rfl

theorem actionOf_not_mem {n : String} {vDb : List AttPropDb} (h : n ∉ vDb.map AttPropDb.name) :
    actionOf n vDb = none := by
  induction vDb with
  | nil => rfl
  | cons a vDb ih =>
    simp only [List.map_cons,List.mem_cons,not_or] at h
    rw [actionOf_cons,if_neg (Ne.symm h.1),ih h.2]

theorem actionOf_append (n : String) (vDb wDb : List AttPropDb) :
    actionOf n (vDb ++ wDb) = (actionOf n vDb).or (actionOf n wDb) := by
  unfold actionOf
  rw [atKey_append,Option.map_or]

theorem propInList_updates (n : String) (vDb : List AttPropDb) (db : List AttrProperty)
    (hn : (vDb.map AttPropDb.name).Nodup) :
    propInList n (vDb.foldl updateOne db) =
    match actionOf n vDb with
    | some (.upd v) => some v
    | _ => propInList n db := by
  induction vDb generalizing db with
  | nil => rfl
  | cons a vDb ih =>
    obtain ⟨ha,hl⟩ := List.nodup_cons.mp hn
    rw [List.foldl_cons,ih _ hl,actionOf_cons]
    unfold updateOne
    by_cases he : a.name = n
    · rw [if_pos he,actionOf_not_mem (he ▸ ha)]
      cases a.dba with
      | upd v =>
        dsimp only
        rw [propInList_put,if_pos he.symm]
      | del => rfl
    · rw [if_neg he]
      cases a.dba with
      | upd v =>
        dsimp only
        rw [propInList_put,if_neg (Ne.symm he)]
      | del => rfl

theorem propInList_deletions (n : String) (vDb : List AttPropDb) (db : List AttrProperty)
    (hn : (vDb.map AttPropDb.name).Nodup) :
    propInList n (vDb.foldl deleteOne db) =
    match actionOf n vDb with
    | some .del => none
    | _ => propInList n db := by
  induction vDb generalizing db with
  | nil => rfl
  | cons a vDb ih =>
    obtain ⟨ha,hl⟩ := List.nodup_cons.mp hn
    rw [List.foldl_cons,ih _ hl,actionOf_cons]
    unfold deleteOne
    by_cases he : a.name = n
    · rw [if_pos he,actionOf_not_mem (he ▸ ha)]
      cases a.dba with
      | upd v => rfl
      | del =>
        dsimp only
        rw [propInList_delete,if_pos he.symm]
    · rw [if_neg he]
      cases a.dba with
      | upd v => rfl
      | del =>
        dsimp only
        rw [propInList_delete,if_neg (Ne.symm he)]

theorem propInList_updDatabase (n : String) (vDb : List AttPropDb) (db : List AttrProperty)
    (hn : (vDb.map AttPropDb.name).Nodup) :
    propInList n (updDatabase vDb db) = after (actionOf n vDb) (propInList n db) := by
  unfold updDatabase
  rw [propInList_deletions n vDb _ hn,propInList_updates n vDb db hn]
  cases actionOf n vDb with
  | none => rfl
  | some a => cases a <;> rfl

end Lookup

section Request
variable (attr : Attr)

theorem name_injective (p q : StrProp) (h : p.name = q.name) : p = q := by
  cases p <;> cases q <;> first | rfl | exact absurd h (by decide)

theorem work_names (f : StrProp → Option DbAction) (ps : List StrProp) :
    ((ps.filterMap (fun p => (f p).map (fun dba => (⟨p.name,dba⟩ : AttPropDb)))).map
      AttPropDb.name) = (ps.filter (fun p => (f p).isSome)).map StrProp.name := by
  induction ps with
  | nil => rfl
  | cons p ps ih =>
    rw [List.filterMap_cons,List.filter_cons]
    cases f p with
    | none => simpa using ih
    | some dba => simpa using ih

theorem actionOf_work (f : StrProp → Option DbAction) (p : StrProp) (ps : List StrProp)
    (hp : p ∈ ps) :
    actionOf p.name (ps.filterMap (fun q => (f q).map (fun dba => (⟨q.name,dba⟩ : AttPropDb)))) =
      f p := by
  induction ps with
  | nil => cases hp
  | cons q ps ih =>
    rw [List.filterMap_cons]
    by_cases hq : q = p
    · subst hq
      cases hf : f q with
      | some dba => simp [actionOf_cons]
      | none =>
        simp only [Option.map_none]
        by_cases hm : q ∈ ps
        · rw [ih hm,hf]
        · apply actionOf_not_mem
          rw [work_names]
          intro hn
          obtain ⟨r,hr,he⟩ := List.mem_map.mp hn
          exact hm (name_injective r q he ▸ (List.mem_filter.mp hr).1)
    · have hm : p ∈ ps := (List.mem_cons.mp hp).resolve_left (Ne.symm hq)
      have hne : q.name ≠ p.name := fun h => hq (name_injective q p h)
      cases f q with
      | none => exact ih hm
      | some dba =>
        simp only [Option.map_some]
        rw [actionOf_cons,if_neg hne,ih hm]

theorem mem_strProps (p : StrProp) : p ∈ strProps := by
  cases p <;> decide

theorem names_nodup : (strProps.map StrProp.name).Nodup := by decide

/-- One request, property by property. -/
theorem setAttributeConfig_db (s : State) (conf : Values) (hn : ¬ isState attr) (p : StrProp) :
    propInList p.name (setAttributeConfig attr s conf).db =
      after (setOneStrProp attr p (conf p) (s.mem p)).2 (propInList p.name s.db) := by
  unfold setAttributeConfig setProperties
  rw [if_neg hn]
  dsimp only
  rw [propInList_updDatabase,actionOf_work _ p strProps (mem_strProps p)]
  rw [work_names]
  exact names_nodup.sublist (List.filter_sublist.map StrProp.name)

theorem setAttributeConfig_mem (s : State) (conf : Values) (hn : ¬ isState attr) (p : StrProp) :
    (setAttributeConfig attr s conf).mem p = (setOneStrProp attr p (conf p) (s.mem p)).1 := by
  unfold setAttributeConfig setProperties
  rw [if_neg hn]

end Request

section Restart
variable (attr : Attr)

/-- The value without a property of the device. -/
def fallback (p : StrProp) : String :=
  (attr.classDef p).getD ((attr.userDef p).getD (notSpec attr p))

theorem propInList_optAttrProp (p : StrProp) :
    propInList p.name (optAttrProp attr) = some (notSpec attr p) := by
  cases p <;> rfl

theorem restarted_eq (db : List AttrProperty) (p : StrProp) :
    restarted attr db p = some ((propInList p.name db).getD (fallback attr p)) := by
  have hlook : restarted attr db p =
      ((((propInList p.name db).or (attr.classDef p)).or (attr.userDef p)).or
        (propInList p.name (optAttrProp attr))) := by
    unfold restarted addDefault addUserDefault concat Attr.classDef Attr.userDef propInList
    rw [atKey_addMissing,atKey_addMissing,atKey_overlay]
    simp only [Option.map_or]
  rw [hlook,propInList_optAttrProp]
  unfold fallback
  cases propInList p.name db <;> cases attr.classDef p <;> cases attr.userDef p <;> rfl

/-- A restart gives every string property the value it has in memory. -/
def Survives (s : State) : Prop := ∀ p, restarted attr s.db p = some (s.mem p)

end Restart

section Lasting
variable (attr : Attr) (p : StrProp)

/-- The texts that ask for a default. -/
def Keyword (c : String) : Prop := sameNoCase c "Not specified" ∨ c = "" ∨ sameNoCase c "NaN"

/-- A text that is taken for a default, and removed from the database, but is not the value that
comes back. -/
def Mistaken (c : String) : Prop :=
  ¬ Keyword c ∧ attr.classDef p = none ∧
    (sameNoCase c (libDef attr p) ∨ (p = .label ∧ sameNoCase c "No label") ∨
      (p = .format ∧ isFormatNotspec attr c)) ∧
    c ≠ fallback attr p

theorem fallback_class {v : String} (h : attr.classDef p = some v) : fallback attr p = v := by
  simp [fallback,h]

theorem fallback_user {v : String} (hc : attr.classDef p = none) (h : attr.userDef p = some v) :
    fallback attr p = v := by
  simp [fallback,hc,h]

theorem setAction_lasts (c : String) (hk : ¬ Keyword c) (old : Option String) :
    (after (some (setAction attr p c)) old).getD (fallback attr p) = c ↔ ¬ Mistaken attr p c := by
  have hdel : (after (some .del) old).getD (fallback attr p) = fallback attr p := rfl
  have hupd : (after (some (.upd c)) old).getD (fallback attr p) = c := rfl
  have hwith : attr.classDef p ≠ none → ¬ Mistaken attr p c := fun hc hm => hc hm.2.1
  unfold setAction
  split
  next hu =>
    by_cases hc : attr.classDef p = none
    · have hf := fallback_user attr p hc hu
      rw [if_neg (by simp [hc]),hdel]
      exact iff_of_true hf (fun hm => hm.2.2.2 hf.symm)
    · rw [if_pos (Option.isSome_iff_ne_none.mpr hc),hupd]
      exact iff_of_true rfl (hwith hc)
  next hu =>
    split
    next hc =>
      have hf := fallback_class attr p hc
      rw [hdel,hf]
      exact iff_of_true rfl (hwith (by simp [hc]))
    next hcne =>
      by_cases hc : attr.classDef p = none
      · -- no class default: what decides is whether the text is taken for the library default
        have hm : ∀ hd : sameNoCase c (libDef attr p) ∨ (p = .label ∧ sameNoCase c "No label") ∨
            (p = .format ∧ isFormatNotspec attr c), fallback attr p = c ↔ ¬ Mistaken attr p c := by
          intro hd
          constructor
          · intro hf hm
            exact hm.2.2.2 hf.symm
          · intro hm
            by_contra hf
            exact hm ⟨hk,hc,hd,Ne.symm hf⟩
        split
        next hl =>
          rw [hdel]
          exact hm (Or.inl hl.2)
        next hl =>
          have hl' : ¬ sameNoCase c (libDef attr p) := fun h => hl ⟨hc,h⟩
          split
          next hlab =>
            split
            next hn =>
              rw [hdel]
              exact hm (Or.inr (Or.inl ⟨hlab.2,hn⟩))
            next hn =>
              rw [hupd]
              refine iff_of_true rfl ?_
              rintro ⟨-,-,h | h | h,-⟩
              · exact hl' h
              · exact hn h.2
              · exact absurd (hlab.2.symm.trans h.1) (by decide)
          next hlab =>
            split
            next hfmt =>
              split
              next hn =>
                rw [hdel]
                exact hm (Or.inr (Or.inr ⟨hfmt.2,hn⟩))
              next hn =>
                rw [hupd]
                refine iff_of_true rfl ?_
                rintro ⟨-,-,h | h | h,-⟩
                · exact hl' h
                · exact hlab ⟨hc,h.1⟩
                · exact hn h.2
            next hfmt =>
              rw [hupd]
              refine iff_of_true rfl ?_
              rintro ⟨-,-,h | h | h,-⟩
              · exact hl' h
              · exact hlab ⟨hc,h.1⟩
              · exact hfmt ⟨hc,h.1⟩
      · rw [if_neg (fun h => hc h.1),if_neg (fun h => hc h.1),if_neg (fun h => hc h.1),hupd]
        exact iff_of_true rfl (hwith hc)

/-- A value that does not change leaves the database alone, else its action is carried out. -/
theorem changed_lasts {old v : String} {dbOld : Option String} {a : DbAction}
    (hold : dbOld.getD (fallback attr p) = old)
    (ha : (after (some a) dbOld).getD (fallback attr p) = v) :
    (after (if old ≠ v then some a else none) dbOld).getD (fallback attr p) = v := by
  by_cases h : old = v
  · rw [if_neg (by simp [h])]
    exact hold.trans h
  · rw [if_pos h]
    exact ha

theorem setOneStrProp_lasts (c old : String) (dbOld : Option String)
    (hold : dbOld.getD (fallback attr p) = old) :
    (after (setOneStrProp attr p c old).2 dbOld).getD (fallback attr p) =
        (setOneStrProp attr p c old).1 ↔
      (old = c ∨ ¬ Mistaken attr p c) := by
  unfold setOneStrProp
  split
  next hns =>
    refine iff_of_true (changed_lasts attr p hold ?_) (Or.inr (fun hm => hm.1 (Or.inl hns)))
    split
    next => rfl
    next hd =>
      have hu : attr.userDef p = none := by
        cases hu : attr.userDef p with
        | none => rfl
        | some v => exact absurd (Or.inl (by simp [hu])) hd
      have hc : attr.classDef p = none := by
        cases hc : attr.classDef p with
        | none => rfl
        | some v => exact absurd (Or.inr (by simp [hc])) hd
      simp [after,fallback,hu,hc]
  next hns =>
    split
    next he =>
      refine iff_of_true (changed_lasts attr p hold ?_)
        (Or.inr (fun hm => hm.1 (Or.inr (Or.inl he))))
      split
      next => rfl
      next hd =>
        have hc : attr.classDef p = none := by
          cases hc : attr.classDef p with
          | none => rfl
          | some v => simp [hc] at hd
        simp [after,fallback,hc]
    next he =>
      split
      next hnan =>
        exact iff_of_true (changed_lasts attr p hold rfl)
          (Or.inr (fun hm => hm.1 (Or.inr (Or.inr hnan))))
      next hnan =>
        have hk : ¬ Keyword c := by
          rintro (h | h | h)
          · exact hns h
          · exact he h
          · exact hnan h
        by_cases h : old = c
        · rw [if_neg (by simp [h])]
          exact iff_of_true (hold.trans h) (Or.inl h)
        · rw [if_pos h,setAction_lasts attr p c hk]
          constructor
          · exact Or.inr
          · exact fun hor => hor.resolve_left h

end Lasting

section Runs
variable (attr : Attr)

/-- A request sets no property to a text that is mistaken for a default. -/
def Lasting (s : State) (conf : Values) : Prop :=
  isState attr ∨ ∀ p, s.mem p = conf p ∨ ¬ Mistaken attr p (conf p)

def LastingRun : State → List Values → Prop
  | _,[] => True
  | s,conf::confs => Lasting attr s conf ∧ LastingRun (setAttributeConfig attr s conf) confs

theorem survives_step {s : State} (h : Survives attr s) (conf : Values) :
    Survives attr (setAttributeConfig attr s conf) ↔ Lasting attr s conf := by
  by_cases hs : isState attr
  · have hsame : setAttributeConfig attr s conf = s := by
      simp [setAttributeConfig,setProperties,hs,updDatabase]
    rw [hsame]
    exact iff_of_true h (Or.inl hs)
  · have hstep : ∀ p, (restarted attr (setAttributeConfig attr s conf).db p =
          some ((setAttributeConfig attr s conf).mem p)) ↔
        (s.mem p = conf p ∨ ¬ Mistaken attr p (conf p)) := by
      intro p
      have hold := h p
      rw [restarted_eq,Option.some.injEq] at hold
      rw [restarted_eq,Option.some.injEq,setAttributeConfig_db attr s conf hs,
        setAttributeConfig_mem attr s conf hs]
      exact setOneStrProp_lasts attr p (conf p) (s.mem p) _ hold
    constructor
    · intro hall
      exact Or.inr (fun p => (hstep p).mp (hall p))
    · intro hl p
      exact (hstep p).mpr (hl.resolve_left hs p)

/-- Every restart after a request gives back the values in memory in exactly the runs of
requests without a text that is mistaken for a default. -/
theorem attribute_strings_survive (s : State) (h : Survives attr s) (confs : List Values) :
    (∀ pre, pre <+: confs → Survives attr (run attr s pre)) ↔ LastingRun attr s confs := by
  induction confs generalizing s with
  | nil =>
    refine iff_of_true ?_ trivial
    intro pre hpre
    rw [List.prefix_nil.mp hpre]
    exact h
  | cons conf confs ih =>
    constructor
    · intro hall
      have h1 : Survives attr (setAttributeConfig attr s conf) := hall [conf] ⟨confs,rfl⟩
      refine ⟨(survives_step attr h conf).mp h1,(ih _ h1).mp ?_⟩
      intro pre hpre
      exact hall (conf::pre) (List.cons_prefix_cons.mpr ⟨rfl,hpre⟩)
    · intro hl pre hpre
      have h1 := (survives_step attr h conf).mpr hl.1
      cases pre with
      | nil => exact h
      | cons c pre =>
        obtain ⟨rfl,hp⟩ := List.cons_prefix_cons.mp hpre
        exact (ih _ h1).mpr hl.2 pre hp

end Runs

section Cases

/-- An attribute without defaults of its own. -/
def plainAttr : Attr := ⟨"Voltage",.devDouble,[],[]⟩

def plainState : State := ⟨fallback plainAttr,[]⟩

theorem plain_survives : Survives plainAttr plainState := by
  intro p
  rw [restarted_eq]
  rfl

def unitConf : Values := fun p => if p = .unit then "mV" else "Not specified"

theorem attribute_unit_survives : Survives plainAttr plainState ∧
    ∀ pre, pre <+: [unitConf] → Survives plainAttr (run plainAttr plainState pre) := by
  refine ⟨plain_survives,?_⟩
  apply (attribute_strings_survive plainAttr plainState plain_survives [unitConf]).mpr
  refine ⟨Or.inr ?_,trivial⟩
  intro p
  right
  intro hm
  cases p with
  | unit => exact absurd hm.2.2.1 (by decide)
  | description => exact hm.1 (Or.inl rfl)
  | label => exact hm.1 (Or.inl rfl)
  | standardUnit => exact hm.1 (Or.inl rfl)
  | displayUnit => exact hm.1 (Or.inl rfl)
  | format => exact hm.1 (Or.inl rfl)

def labelConf : Values := fun p => if p = .label then "No label" else "Not specified"

/-- The label is set to "No label"; after a restart it is the attribute's name. -/
theorem attribute_label_lost :
    Survives plainAttr plainState ∧
      (setAttributeConfig plainAttr plainState labelConf).mem .label = "No label" ∧
      restarted plainAttr (setAttributeConfig plainAttr plainState labelConf).db .label =
        some "Voltage" := by
  refine ⟨plain_survives,by decide,by decide⟩

end Cases

end CppTango.Device.StrProps
