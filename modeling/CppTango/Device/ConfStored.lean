import CppTango.Device.ConfRefused
import CppTango.Device.EventRuns
import CppTango.Device.RdsRuns
import Mathlib.Data.List.Pairwise

namespace CppTango.Device.Conf

open CppTango.Lib StrProps

variable {D : Doubles} {attr : AttrDesc}

section Calls
variable {c : StoredCall D} {conf : AttributeConfig} {s : StoredState D}

/-- The call as it is seen from memory: the database only fails or not. -/
def StoredCall.call (attr : AttrDesc) (c : StoredCall D) (conf : AttributeConfig) (s : StoredState D) : Call D where
  mem := c.mem
  stack := c.stack
  stackDb := c.stackDb
  stackBack := c.stackBack
  useDb := true
  updError vDb := (dbAccess c.update (vDb.map AttPropDb.sent) s.db).2
  backFails vDb :=
    match (setProperties attr c.mem c.stack conf s.mem).2 with
    | .error _ => false
    | .ok first =>
      (dbAccess c.back (vDb.map AttPropDb.sent)
        (dbAccess c.update (first.map AttPropDb.sent) s.db).1).2.isSome

/-- Memory and exception are those of the model without a database. -/
theorem setUpdStored_call :
    ((setUpdStored attr c conf s).1.mem,(setUpdStored attr c conf s).2) =
      setUpdProperties attr (c.call attr conf s) conf s.mem := by
  unfold setUpdStored setUpdProperties StoredCall.call
  dsimp only
  cases hs : setProperties attr c.mem c.stack conf s.mem with
  | mk m r =>
    cases r with
    | error e => rfl
    | ok vDb =>
      dsimp only
      cases checkRangeCoherency attr m (s.mem.range .minValue).checkIt (s.mem.range .maxValue).checkIt with
      | some e => rfl
      | none =>
        dsimp only
        rw [if_pos rfl]
        cases dbAccess c.update (vDb.map AttPropDb.sent) s.db with
        | mk db e =>
          cases e with
          | none => rfl
          | some e =>
            unfold putBack restoreDatabase
            dsimp only
            cases setProperties attr c.mem c.stackDb (getProperties attr s.mem) m with
            | mk m' r' =>
              cases r' with
              | error e' => rfl
              | ok back =>
                obtain ⟨db',e',hb⟩ : ∃ db' e', dbAccess c.back (back.map AttPropDb.sent) db = (db',e') := ⟨_,_,rfl⟩
                cases e' <;> simp only [hb] <;> rfl

end Calls

section Access
variable {answers : Answers} {vDb : List StrProps.AttPropDb} {db : List AttrProperty}

theorem updates_none (h : vDb.any updates = false) : vDb.foldl updateOne db = db := by
  induction vDb with
  | nil => rfl
  | cons a vDb ih =>
    rw [List.any_cons,Bool.or_eq_false_iff] at h
    have ha : updateOne db a = db := by
      obtain ⟨name,dba⟩ := a
      cases dba with
      | upd v => cases h.1
      | del => rfl
    rw [List.foldl_cons,ha,ih h.2]

theorem deletions_none (h : vDb.all updates = true) : vDb.foldl deleteOne db = db := by
  induction vDb with
  | nil => rfl
  | cons a vDb ih =>
    rw [List.all_cons,Bool.and_eq_true] at h
    have ha : deleteOne db a = db := by
      obtain ⟨name,dba⟩ := a
      cases dba with
      | upd v => rfl
      | del => cases h.1
    rw [List.foldl_cons,ha,ih h.2]

/-- Each of the two requests has been carried out or not. -/
theorem dbAccess_either (answers : Answers) (vDb : List StrProps.AttPropDb) (db : List AttrProperty) :
    ∃ db1, (db1 = db ∨ db1 = vDb.foldl updateOne db) ∧
      ((dbAccess answers vDb db).1 = db1 ∨ (dbAccess answers vDb db).1 = vDb.foldl deleteOne db1) := by
  have hrequest : ∀ (fails : Option Failure) (old new : List AttrProperty),
      (request fails old new).1 = old ∨ (request fails old new).1 = new := by
    intro fails old new
    cases fails with
    | none => exact .inr rfl
    | some f =>
      dsimp only [request]
      split
      next => exact .inr rfl
      next => exact .inl rfl
  have hput : (if vDb.any updates then request answers.put db (vDb.foldl updateOne db) else (db,none)).1 = db ∨
      (if vDb.any updates then request answers.put db (vDb.foldl updateOne db) else (db,none)).1 =
        vDb.foldl updateOne db := by
    split
    next => exact hrequest _ _ _
    next => exact .inl rfl
  refine ⟨_,hput,?_⟩
  unfold dbAccess
  split
  next db1 e he => exact .inl (by rw [he])
  next db1 he =>
    rw [he]
    split
    next => exact .inl rfl
    next => exact hrequest _ _ _

/-- A success has carried out both. -/
theorem dbAccess_ok (h : (dbAccess answers vDb db).2 = none) : (dbAccess answers vDb db).1 = updDatabase vDb db := by
  have hrequest : ∀ (fails : Option Failure) (old new : List AttrProperty),
      (request fails old new).2 = none → (request fails old new).1 = new := by
    intro fails old new hr
    cases fails with
    | none => rfl
    | some f => cases hr
  unfold dbAccess at h ⊢
  unfold updDatabase
  split at h
  next => cases h
  next db1 he =>
    have hput : db1 = vDb.foldl updateOne db := by
      split at he
      next =>
        have := hrequest answers.put db (vDb.foldl updateOne db)
        rw [he] at this
        exact this rfl
      next hn =>
        cases he
        exact (updates_none (Bool.eq_false_iff.mpr hn)).symm
    subst hput
    split
    next ha => exact (deletions_none ha).symm
    next ha =>
      rw [if_neg ha] at h
      exact hrequest _ _ _ h

variable {name : String}

variable (answers db) in
/-- What is found for the properties of a list of names, in which all work is of one kind: all of it
is carried out or nothing. -/
theorem dbAccess_between {names : List String} (hn : (vDb.map StrProps.AttPropDb.name).Nodup)
    (hkind : (∀ name ∈ names, actionOf name vDb ≠ some .del) ∨
      (∀ name ∈ names, ∀ v, actionOf name vDb ≠ some (.upd v))) :
    (∀ name ∈ names, propInList name (dbAccess answers vDb db).1 = propInList name db) ∨
      (∀ name ∈ names, propInList name (dbAccess answers vDb db).1 =
        after (actionOf name vDb) (propInList name db)) := by
  obtain ⟨db1,hput,hdel⟩ := dbAccess_either answers vDb db
  have hupdates := fun name => propInList_updates name vDb db hn
  have hdeletions := fun name => propInList_deletions name vDb db1 hn
  rcases hkind with hkind | hkind
  · -- only updates: the second request does not touch these names
    have hsecond : ∀ name ∈ names, propInList name (dbAccess answers vDb db).1 = propInList name db1 := by
      intro name hm
      rcases hdel with he | he
      · rw [he]
      · rw [he,hdeletions name]
        cases ha : actionOf name vDb with
        | none => rfl
        | some a =>
          cases a with
          | upd v => rfl
          | del => exact absurd ha (hkind name hm)
    rcases hput with rfl | rfl
    · exact .inl hsecond
    · refine .inr fun name hm => ?_
      rw [hsecond name hm,hupdates name]
      cases ha : actionOf name vDb with
      | none => rfl
      | some a =>
        cases a with
        | upd v => rfl
        | del => exact absurd ha (hkind name hm)
  · have hfirst : ∀ name ∈ names, propInList name db1 = propInList name db := by
      intro name hm
      rcases hput with he | he
      · rw [he]
      · rw [he,hupdates name]
        cases ha : actionOf name vDb with
        | none => rfl
        | some a =>
          cases a with
          | upd v => exact absurd ha (hkind name hm v)
          | del => rfl
    rcases hdel with he | he
    · exact .inl fun name hm => by rw [he,hfirst name hm]
    · refine .inr fun name hm => ?_
      rw [he,hdeletions name,hfirst name hm]
      cases ha : actionOf name vDb with
      | none => rfl
      | some a =>
        cases a with
        | upd v => exact absurd ha (hkind name hm v)
        | del => rfl

end Access

section Work
variable {mem : Memorized D} {stack : RangeProp → D.Dbl × D.Dbl} {conf : AttributeConfig}

/-- Every item is treated for a numeric attribute that is not State or Status. -/
theorem item_mem (hs : ¬ isState attr.toAttr) (hn : ¬ noNumber attr.dataType) (i : Item) : i ∈ items attr := by
  unfold items oldItems
  rw [if_neg hs,if_neg (not_or.mpr ⟨hs,hn⟩)]
  cases i with
  | hardCoded | hardCodedAgain | level | rds => decide
  | str p | range p | change p | period p => cases p <;> decide

/-- Items share no property of the database. -/
theorem itemNames_disjoint {i j : Item} (hne : i ≠ j) {name : String} (hi : name ∈ i.names) : name ∉ j.names := by
  intro hj
  have hmem : ∀ k, k ∈ items sampleAttr := item_mem (by decide) (by decide)
  have hpair := (List.nodup_flatMap.mp (itemNames_nodup sampleAttr)).2
  have hsymm : Std.Symm (Function.onFun List.Disjoint Item.names) := ⟨fun _ _ h _ ha hb => h hb ha⟩
  exact hpair.forall (hmem i) (hmem j) hne hi hj

/-- The work of an item is all that the whole work has for its names. -/
theorem setProperties_out {s : AttrState D} {vDb : List (AttPropDb D)}
    (h : (setProperties attr mem stack conf s).2 = .ok vDb) {i : Item} (hi : i ∈ items attr) :
    ∃ t out, sameItem i t s ∧ (itemSetter attr mem stack conf i t).2 = .ok out ∧
      sameItem i (setProperties attr mem stack conf s).1 (itemSetter attr mem stack conf i t).1 ∧
      ∀ name ∈ i.names, actionOf name (vDb.map AttPropDb.sent) = actionOf name (out.map AttPropDb.sent) := by
  obtain ⟨t,out,pre,post,ht,ho,hs,rfl,hothers⟩ := setAll_cell sameItem_equivalence
    (List.forall_mem_map.mpr (fun j _ => itemSetter_keeps j)) ((cells_items attr _).symm ▸ items_nodup attr) h
    (List.mem_map_of_mem hi)
  refine ⟨t,out,ht,ho,hs,fun name hname => ?_⟩
  have hfar : ∀ l : List (AttPropDb D), (∀ w ∈ l, w ∈ pre ++ post) → actionOf name (l.map AttPropDb.sent) = none := by
    intro l hl
    refine actionOf_not_mem fun hm => ?_
    rw [List.map_map] at hm
    obtain ⟨w,hw,rfl⟩ := List.mem_map.mp hm
    obtain ⟨d,hd,hne,u,o,hso,hwo⟩ := hothers w (hl w hw)
    obtain ⟨j,-,rfl⟩ := List.mem_map.mp hd
    exact itemNames_disjoint hne ((itemSetter_names j hso).subset (List.mem_map_of_mem hwo)) hname
  rw [List.map_append,List.map_append,actionOf_append,actionOf_append,
    hfar pre (fun w hw => List.mem_append_left _ hw),hfar post (fun w hw => List.mem_append_right _ hw),
    Option.none_or,Option.or_none]

/-- An item that is not treated has no work. -/
theorem setProperties_far {s : AttrState D} {vDb : List (AttPropDb D)}
    (h : (setProperties attr mem stack conf s).2 = .ok vDb) {i : Item} (hi : i ∉ items attr) {name : String}
    (hname : name ∈ i.names) : actionOf name (vDb.map AttPropDb.sent) = none := by
  refine actionOf_not_mem fun hm => ?_
  rw [List.map_map] at hm
  obtain ⟨j,hj,hnj⟩ := List.mem_flatMap.mp ((setProperties_names h).subset hm)
  have hne : i ≠ j := by
    rintro rfl
    exact hi hj
  exact itemNames_disjoint hne hname hnj

theorem setProperties_sent {s : AttrState D} {vDb : List (AttPropDb D)}
    (h : (setProperties attr mem stack conf s).2 = .ok vDb) :
    ((vDb.map AttPropDb.sent).map StrProps.AttPropDb.name).Nodup := by
  rw [List.map_map]
  exact (itemNames_nodup attr).sublist (setProperties_names h)

/-- The work of the alarm: both properties or none. -/
theorem setRdsProp_work {texts : RdsTexts} {r : RdsConf D} {out : List (AttPropDb D)}
    (h : (setRdsProp attr texts r).2 = .ok out) : out = [] ∨ (∃ v x, out = storeBoth v x) ∨ out = deleteBoth := by
  unfold setRdsProp at h
  split at h
  next => cases h
  next =>
    dsimp only at h
    split at h
    next =>
      unfold setRdsPropDb at h
      split at h
      next => cases h
      next v _ =>
        split at h
        next => cases h
        next x _ =>
          dsimp only at h
          split_ifs at h <;> cases h
          all_goals first
            | exact .inl rfl
            | exact .inr (.inl ⟨v,x,rfl⟩)
            | exact .inr (.inr rfl)
    next => cases h; exact .inl rfl

/-- The work of an item is of one kind. -/
theorem itemSetter_kind {i : Item} {s : AttrState D} {out : List (AttPropDb D)}
    (h : (itemSetter attr mem stack conf i s).2 = .ok out) :
    (∀ name ∈ i.names, actionOf name (out.map AttPropDb.sent) ≠ some .del) ∨
      (∀ name ∈ i.names, ∀ v, actionOf name (out.map AttPropDb.sent) ≠ some (.upd v)) := by
  have hsingle : ∀ name : String,
      (∀ n ∈ [name], actionOf n (out.map AttPropDb.sent) ≠ some .del) ∨
        (∀ n ∈ [name], ∀ v, actionOf n (out.map AttPropDb.sent) ≠ some (.upd v)) := by
    intro name
    simp only [List.mem_singleton,forall_eq]
    cases actionOf name (out.map AttPropDb.sent) with
    | none => exact .inl (fun he => nomatch he)
    | some a =>
      cases a with
      | upd v => exact .inl (fun he => nomatch he)
      | del => exact .inr (fun v he => nomatch he)
  cases i with
  | hardCoded | hardCodedAgain | level => exact .inl fun name hn => absurd hn List.not_mem_nil
  | str p | range p | change p | period p => exact hsingle p.name
  | rds =>
    rcases setRdsProp_work h with rfl | ⟨v,x,rfl⟩ | rfl
    · exact .inl fun name _ he => nomatch he
    · refine .inl fun name hn => ?_
      rcases List.mem_pair.mp hn with rfl | rfl <;> exact fun he => nomatch he
    · refine .inr fun name hn v => ?_
      rcases List.mem_pair.mp hn with rfl | rfl <;> exact fun he => nomatch he

end Work

/-- What the two works of an item make of its properties: the first has been carried out in full or
not at all, the second in full. -/
structure PutBack (attr : AttrDesc) (names : List String) (first second : List (AttPropDb D))
    (d0 d1 d2 : List AttrProperty) : Prop where
  failed : (∀ name ∈ names, startProp attr name d1 = startProp attr name d0) ∨
    (∀ name ∈ names, startProp attr name d1 = startProp attr name (updAttDatabase first d0))
  back : ∀ name ∈ names, startProp attr name d2 = startProp attr name (updAttDatabase second d1)

section Items
variable {d0 d1 d2 : List AttrProperty} {first second : List (AttPropDb D)} {name : String} {names : List String}

/-- Without any work everything is found as before. -/
theorem PutBack.untouched (h : PutBack attr names first second d0 d1 d2) (h1 : first = []) (h2 : second = [])
    (hn : name ∈ names) : startProp attr name d2 = startProp attr name d0 := by
  subst h1 h2
  exact (h.back name hn).trans (h.failed.elim (fun h => h name hn) (fun h => h name hn))

/-- A property in the database, once its work is done. -/
theorem startProp_work (dba : DbAction) (db : List AttrProperty) :
    startProp attr name (updAttDatabase (D := D) [⟨name,dbaOf D dba⟩] db) =
      (after (some dba) none).or (defaultProp attr name) := by
  rw [startProp_one,if_pos rfl]
  cases dba <;> rfl

section Strings
variable {p : StrProp} {conf text : String}

theorem setOneStrProp_none {a : Attr} {old : String} :
    (setOneStrProp a p conf old).2 = none ↔ old = (setOneStrProp a p conf old).1 := by
  have hite : ∀ (v : String) (action : DbAction),
      (if old ≠ v then some action else none) = none ↔ old = v := by
    intro v action
    by_cases h : old = v <;> simp [h]
  unfold setOneStrProp
  split
  next => exact hite _ _
  next =>
    split
    next => exact hite _ _
    next => split <;> exact hite _ _

theorem startText_fallback (db : List AttrProperty) :
    startText attr p.name (notSpec attr.toAttr p) db = (propInList p.name db).getD (fallback attr.toAttr p) := by
  unfold startText fallback Attr.classDef Attr.userDef
  rw [startProp_eq]
  unfold defaultProp
  cases propInList p.name db with
  | some v => rfl
  | none =>
    cases propInList p.name attr.classProperties with
    | some v => rfl
    | none => cases propInList p.name attr.userDefaultProperties <;> rfl

/-- The request leaves the property as it is, or its old text is not taken for a default when it is
set again. -/
def strWritten (attr : AttrDesc) (p : StrProp) (conf text : String) : Prop :=
  (setOneStrProp attr.toAttr p conf text).1 = text ∨ ¬ Mistaken attr.toAttr p text

/-- The work `set_one_str_prop` adds. -/
def strWork (D : Doubles) (p : StrProp) (action : Option DbAction) : List (AttPropDb D) :=
  action.toList.map (fun dba => ⟨p.name,dbaOf D dba⟩)

theorem str_back (hk : strKept attr p text) (hw : strWritten attr p conf text)
    (h : PutBack attr [p.name] (strWork D p (setOneStrProp attr.toAttr p conf text).2)
      (strWork D p (setOneStrProp attr.toAttr p text (setOneStrProp attr.toAttr p conf text).1).2) d0 d1 d2)
    (h0 : startText attr p.name (notSpec attr.toAttr p) d0 = text) :
    startText attr p.name (notSpec attr.toAttr p) d2 = text := by
  obtain ⟨new,hnew⟩ : ∃ new, (setOneStrProp attr.toAttr p conf text).1 = new := ⟨_,rfl⟩
  have hkept := setOneStrProp_kept hk new
  rw [hnew] at h
  unfold strWritten at hw
  rw [hnew] at hw
  cases hs : (setOneStrProp attr.toAttr p text new).2 with
  | none =>
    have hsame : new = text := (setOneStrProp_none.mp hs).trans hkept
    have hfirst : (setOneStrProp attr.toAttr p conf text).2 = none :=
      setOneStrProp_none.mpr (hsame.symm.trans hnew.symm)
    rw [hs,hfirst] at h
    unfold startText at h0 ⊢
    rw [h.untouched rfl rfl List.mem_cons_self]
    exact h0
  | some dba =>
    -- the action does not depend on what was in the database before
    have hlasts := (setOneStrProp_lasts attr.toAttr p text new (some new) rfl).mpr hw
    rw [hs,hkept] at hlasts
    rw [hs] at h
    have hend : startProp attr p.name d2 = (after (some dba) none).or (defaultProp attr p.name) :=
      (h.back p.name List.mem_cons_self).trans (startProp_work dba d1)
    have hfall : startText attr p.name (notSpec attr.toAttr p) d2 =
        (after (some dba) (some new)).getD (fallback attr.toAttr p) := by
      cases dba with
      | upd v =>
        unfold startText
        rw [hend]
        rfl
      | del =>
        have he : startText attr p.name (notSpec attr.toAttr p) [] = _ := startText_fallback []
        unfold startText at he ⊢
        rw [hend]
        rw [startProp_eq] at he
        exact he
    exact hfall.trans hlasts

end Strings

section Bounds
variable {p : RangeProp} {mem : Memorized D} {stack stackBack : D.Dbl × D.Dbl} {conf : String} {r : RangeConf D}

variable (D attr p) in
/-- The text the database has for a bound after a request that changes it: a default it asks for or is
taken for, or its number. -/
def writtenText (conf : String) : String :=
  if isKeyword conf then askedText attr p conf
  else if equalDef D attr.dataType conf (p.userDef attr) then (p.userDef attr).getD ""
  else if equalDef D attr.dataType conf (p.classDef attr) then (p.classDef attr).getD ""
  else dbText D attr.dataType conf

theorem fallback_asked (h : p.classDef attr = none) :
    fallbackText attr p = (p.userDef attr).getD "Not specified" := by
  rw [fallbackText,h,Option.none_or]

/-- A default a number is taken for. -/
theorem equalDef_some {t : AttrType} {x : Option String} (h : equalDef D t conf x = true) : ∃ d, x = some d := by
  cases x with
  | none => cases h
  | some d => exact ⟨d,rfl⟩

/-- The one action of a request leaves the written text. -/
def Writes (attr : AttrDesc) (p : RangeProp) (text : String) (r : Except DevErrorList (List DbAction)) : Prop :=
  ∀ l, r = .ok l → ∃ dba, l = [dba] ∧ (after (some dba) none).getD (fallbackText attr p) = text

theorem writes_one {dba : DbAction} {text : String} (h : (after (some dba) none).getD (fallbackText attr p) = text) :
    Writes attr p text (.ok [dba]) := by
  rintro l ⟨⟩
  exact ⟨dba,rfl,h⟩

theorem keyword_writes (hk : isKeyword conf) {old : String} (hne : old ≠ askedText attr p conf) :
    Writes attr p (askedText attr p conf) (storeInDb D attr p conf (chooseAlarm D attr p conf old).store) := by
  have hdel : ∀ {text : String}, fallbackText attr p = text →
      Writes attr p text (storeInDb D attr p conf .delete) := fun h => writes_one h
  unfold chooseAlarm
  unfold askedText at hne ⊢
  by_cases h1 : sameNoCase conf "Not specified"
  · rw [if_pos h1] at hne ⊢
    rw [if_pos h1]
    dsimp only
    rw [if_pos hne]
    split
    next => exact writes_one rfl
    next h =>
      obtain ⟨hu,hc⟩ := not_or.mp h
      refine hdel ?_
      rw [fallback_asked (Option.not_isSome_iff_eq_none.mp hc),Option.not_isSome_iff_eq_none.mp hu]
      rfl
  · rw [if_neg h1] at hne ⊢
    rw [if_neg h1]
    by_cases h2 : conf = ""
    · rw [if_pos h2] at hne ⊢
      rw [if_pos h2]
      dsimp only
      rw [if_pos hne]
      split
      next =>
        cases hu : p.userDef attr with
        | none => exact writes_one rfl
        | some u =>
          refine writes_one ?_
          rw [hu]
          rfl
      next hc => exact hdel (fallback_asked (Option.not_isSome_iff_eq_none.mp hc))
    · have h3 : sameNoCase conf "NaN" := (hk.resolve_left h1).resolve_left h2
      rw [if_neg h2,if_pos h3] at hne ⊢
      rw [if_neg h2,if_pos h3]
      dsimp only
      rw [if_pos hne]
      refine hdel ?_
      unfold fallbackText
      cases p.classDef attr <;> rfl

theorem number_writes (hk : ¬ isKeyword conf) {old : String} (hne : old ≠ conf) :
    Writes attr p (writtenText D attr p conf) (storeInDb D attr p conf (chooseAlarm D attr p conf old).store) := by
  have h := hk
  simp only [isKeyword,not_or] at h
  unfold chooseAlarm writtenText
  rw [if_neg h.1,if_neg h.2.1,if_neg h.2.2,if_neg hk]
  dsimp only
  rw [if_pos hne]
  by_cases hu : equalDef D attr.dataType conf (p.userDef attr) = true
  · obtain ⟨u,hus⟩ := equalDef_some hu
    rw [if_pos hu,if_pos hu]
    split
    next => exact writes_one rfl
    next hc =>
      refine writes_one ?_
      rw [hus]
      exact (fallback_asked (Option.not_isSome_iff_eq_none.mp hc)).trans (by rw [hus]; rfl)
  · rw [if_neg hu,if_neg hu]
    by_cases hc : equalDef D attr.dataType conf (p.classDef attr) = true
    · obtain ⟨d,hcs⟩ := equalDef_some hc
      rw [if_pos hc,if_pos hc]
      refine writes_one ?_
      unfold fallbackText
      rw [hcs]
      rfl
    · rw [if_neg hc,if_neg hc]
      rintro l hl
      dsimp only [storeInDb] at hl
      split at hl
      next =>
        cases hl
        exact ⟨_,rfl,rfl⟩
      next => cases hl

theorem chooseAlarm_same {old : String} (h : old = askedText attr p conf) :
    (chooseAlarm D attr p conf old).store = .nothing := by
  unfold askedText at h
  unfold chooseAlarm
  by_cases h1 : sameNoCase conf "Not specified"
  · rw [if_pos h1] at h ⊢
    exact if_neg (not_not.mpr h)
  · rw [if_neg h1] at h ⊢
    by_cases h2 : conf = ""
    · rw [if_pos h2] at h ⊢
      exact if_neg (not_not.mpr h)
    · rw [if_neg h2] at h ⊢
      by_cases h3 : sameNoCase conf "NaN"
      · rw [if_pos h3] at h ⊢
        exact if_neg (not_not.mpr h)
      · rw [if_neg h3] at h ⊢
        exact if_neg (not_not.mpr h)

theorem askedText_self (hk : ¬ isKeyword conf) : askedText attr p conf = conf := by
  simp only [isKeyword,not_or] at hk
  unfold askedText
  rw [if_neg hk.1,if_neg hk.2.1,if_neg hk.2.2]

/-- What a request that succeeds does in the database. -/
theorem alarm_written {old : String} {l : List DbAction}
    (h : storeInDb D attr p conf (chooseAlarm D attr p conf old).store = .ok l) :
    if old = askedText attr p conf then l = []
    else ∃ dba, l = [dba] ∧ (after (some dba) none).getD (fallbackText attr p) = writtenText D attr p conf := by
  split
  next he =>
    rw [chooseAlarm_same he] at h
    cases h
    rfl
  next hne =>
    by_cases hk : isKeyword conf
    · have hw : writtenText D attr p conf = askedText attr p conf := if_pos hk
      rw [hw]
      exact keyword_writes hk hne l h
    · rw [askedText_self hk] at hne
      exact number_writes hk hne l h

/-- The old bound set again is stored as it is; and so is what the request makes of it when it still
shows as the old one. -/
def rangeWritten (attr : AttrDesc) (mem : Memorized D) (stack : D.Dbl × D.Dbl) (p : RangeProp) (conf : String)
    (r : RangeConf D) : Prop :=
  if (setOneAlarmProp attr p mem stack conf r).1.str = r.str then
    r.str = askedText attr p conf ∨ writtenText D attr p conf = r.str
  else writtenText D attr p r.str = r.str

theorem restartText_work (dba : DbAction) (db : List AttrProperty) :
    ((startProp attr p.name (updAttDatabase (D := D) [⟨p.name,dbaOf D dba⟩] db)).getD "Not specified") =
      (after (some dba) none).getD (fallbackText attr p) := by
  rw [startProp_work]
  cases dba <;> rfl

theorem askedText_kept (hk : rangeKept attr mem stack p r) : askedText attr p r.str = r.str := by
  rcases hk with ⟨ht,-⟩ | ⟨-,-,hr,-⟩
  · rw [ht]
    exact if_pos notSpecified_self
  · exact askedText_number hr

theorem range_back {new : RangeConf D} {l1 l2 : List DbAction}
    (hk : rangeKept attr mem stackBack p r) (hw : rangeWritten attr mem stack p conf r)
    (h1 : setOneAlarmProp attr p mem stack conf r = (new,.ok l1))
    (h2 : (setOneAlarmProp attr p mem stackBack r.str new).2 = .ok l2)
    (h : PutBack attr [p.name] (l1.map (fun dba => (⟨p.name,dbaOf D dba⟩ : AttPropDb D)))
      (l2.map (fun dba => ⟨p.name,dbaOf D dba⟩)) d0 d1 d2)
    (h0 : restartText attr p d0 = r.str) : restartText attr p d2 = r.str := by
  have htext : ∀ db, restartText attr p db = (startProp attr p.name db).getD "Not specified" := fun _ => rfl
  have hwork1 := alarm_written (setOneAlarmProp_ok (congrArg Prod.snd h1)).1
  have hwork2 := alarm_written (setOneAlarmProp_ok h2).1
  rw [askedText_kept hk] at hwork2
  unfold rangeWritten at hw
  rw [h1] at hw
  have hback := h.back p.name List.mem_cons_self
  split at hwork2
  next hsame =>
    -- the bound already shows as the old one: what counts is the work of the request
    rw [if_pos hsame] at hw
    subst hwork2
    have hend : startProp attr p.name d2 = startProp attr p.name d1 := hback
    rw [htext,hend]
    rcases h.failed with hf | hf
    · rw [hf p.name List.mem_cons_self]
      exact h0
    · rw [hf p.name List.mem_cons_self]
      split at hwork1
      next =>
        subst hwork1
        exact h0
      next hne =>
        obtain ⟨dba,rfl,hdba⟩ := hwork1
        exact (restartText_work dba d0).trans (hdba.trans (hw.resolve_left hne))
  next hne =>
    rw [if_neg hne] at hw
    obtain ⟨dba,rfl,hdba⟩ := hwork2
    rw [htext,hback]
    exact (restartText_work dba d1).trans (hdba.trans hw)

end Bounds

section Alarms
variable {r : RdsConf D} {conf : RdsTexts}

theorem startRds_congr {db db' : List AttrProperty}
    (hv : startText attr "delta_val" "Not specified" db = startText attr "delta_val" "Not specified" db')
    (ht : startText attr "delta_t" "0" db = startText attr "delta_t" "0" db') :
    startRds D attr db = startRds D attr db' := by
  unfold startRds initRds initDeltaVal initDeltaT
  rw [hv,ht]

/-- The text `delta_t` has in the database. -/
def timeText (r : RdsConf D) : String := if r.deltaT = 0 then "0" else r.deltaTStr

/-- The two numbers are stored as they are: both are set or neither is, no default is taken for
`delta_t`, and one that is the same but for the case is the same. -/
structure RdsStored (attr : AttrDesc) (r : RdsConf D) : Prop where
  whole : r.deltaValStr = "Not specified" ↔ r.deltaT = 0
  time : deltaTDb D attr (rdsTexts r).deltaT = .ok (timeText r)
  spelled : ∀ defaults ∈ [attr.classProperties,attr.userDefaultProperties],
    sameNoCase r.deltaValStr ((propInList "delta_val" defaults).getD "") →
    sameNoCase (timeText r) ((propInList "delta_t" defaults).getD "") →
    propInList "delta_val" defaults = some r.deltaValStr ∧ propInList "delta_t" defaults = some (timeText r)

/-- The old numbers set again are stored as they are, or they are no change for what the request has
made of them, and it has written nothing. -/
def rdsWritten (attr : AttrDesc) (conf : RdsTexts) (r : RdsConf D) : Prop :=
  let new := (setRdsProp attr conf r).1
  if rdsChanged attr.dataType new (setRdsProp attr (rdsTexts r) new).1 then RdsStored attr r
  else (setRdsProp attr conf r).2 = .ok []

theorem deltaValDb_kept (hk : RdsKept attr r) : deltaValDb D attr r.deltaValStr = .ok r.deltaValStr := by
  obtain ⟨v,hv⟩ := hk.db
  rw [hv]
  suffices h : v = r.deltaValStr from congrArg Except.ok h
  have hnan : ¬ sameNoCase r.deltaValStr "NaN" ∧ r.deltaValStr ≠ "" := by
    rcases hk.val with ht | ⟨hr,-⟩
    · rw [ht]
      decide
    · exact ⟨fun h => not_keyword_of_read hr (.inr (.inr h)),fun h => not_keyword_of_read hr (.inr (.inl h))⟩
  have hnot : sameNoCase r.deltaValStr "Not specified" → r.deltaValStr = "Not specified" := by
    intro h
    rcases hk.val with ht | ⟨hr,-⟩
    · exact ht
    · exact absurd (.inl h) (not_keyword_of_read hr)
  have hnumber : ∀ origin,
      (if noNumber attr.dataType ∨ attr.dataType = .devEnum then
          .error (throwErrDataType attr "delta_val" "Attribute::set_rds_prop_db()")
        else if (D.read r.deltaValStr).2 then .ok (typedText D attr.dataType r.deltaValStr (D.read r.deltaValStr).1)
        else .error (throwErrFormat attr "delta_val" origin)) = Except.ok v → v = r.deltaValStr := by
    intro origin h
    split at h
    next => cases h
    next =>
      split at h
      next hr =>
        cases h
        rcases hk.val with ht | ⟨-,htext⟩
        · exact absurd ht (not_notSpecified_of_read hr)
        · exact htext
      next => cases h
  unfold deltaValDb at hv
  dsimp only at hv
  split at hv
  next cls _ _ =>
    split at hv
    next h =>
      cases hv
      exact (h.resolve_left hnan.1).symm
    next =>
      split at hv
      next h => exact absurd h hnan.2
      next =>
        split at hv
        next h =>
          cases hv
          exact (hnot h).symm
        next => exact hnumber _ hv
  next user _ =>
    split at hv
    next h =>
      cases hv
      exact (h.resolve_left hnan.1).elim Eq.symm (fun h => absurd h hnan.2)
    next =>
      split at hv
      next h =>
        cases hv
        exact (hnot h).symm
      next => exact hnumber _ hv
  next =>
    split at hv
    next h =>
      cases hv
      exact (hnot (h.elim id (fun h => h.elim (fun h => absurd h hnan.2) (fun h => absurd h hnan.1)))).symm
    next => exact hnumber _ hv

/-- Not specified and 0 are recognised by their texts. -/
theorem rds_texts (hk : RdsKept attr r) :
    (sameNoCase r.deltaValStr "Not specified" ↔ r.deltaValStr = "Not specified") ∧
      (sameNoCase (timeText r) "0" ↔ r.deltaT = 0) := by
  refine ⟨⟨fun h => ?_,fun h => by rw [h]; exact notSpecified_self⟩,?_⟩
  · rcases hk.val with ht | ⟨hr,-⟩
    · exact ht
    · exact absurd (.inl h) (not_keyword_of_read hr)
  · unfold timeText
    by_cases h0 : r.deltaT = 0
    · rw [if_pos h0]
      exact iff_of_true rfl h0
    · obtain ⟨-,hz,htext⟩ := hk.time.resolve_left h0
      rw [if_neg h0,← htext]
      exact iff_of_false (intString_not_zero hz).2.1 h0

/-- What a start finds once the old numbers are set again. -/
theorem rdsStored_work (hk : RdsKept attr r) (hs : RdsStored attr r) {l : List (AttPropDb D)}
    (h : setRdsPropDb D attr (rdsTexts r) = .ok l) (db : List AttrProperty) :
    startText attr "delta_val" "Not specified" (updAttDatabase l db) = r.deltaValStr ∧
      startText attr "delta_t" "0" (updAttDatabase l db) = timeText r := by
  obtain ⟨hv,ht⟩ := rds_texts hk
  have hval : (rdsTexts r).deltaVal = r.deltaValStr := rfl
  have hdelete : defaultProp attr "delta_val" = some r.deltaValStr → defaultProp attr "delta_t" = some (timeText r) →
      startText attr "delta_val" "Not specified" (updAttDatabase (D := D) deleteBoth db) = r.deltaValStr ∧
        startText attr "delta_t" "0" (updAttDatabase (D := D) deleteBoth db) = timeText r := by
    intro h1 h2
    obtain ⟨he1,he2⟩ := startText_delete (D := D) attr db
    rw [he1,he2,h1,h2]
    exact ⟨rfl,rfl⟩
  unfold setRdsPropDb at h
  rw [hval,deltaValDb_kept hk,hs.time] at h
  dsimp only at h
  have hsplit : (sameNoCase r.deltaValStr "Not specified" ∧ sameNoCase (timeText r) "0") ∨
      (¬ sameNoCase r.deltaValStr "Not specified" ∧ ¬ sameNoCase (timeText r) "0") := by
    rw [hv,ht,hs.whole]
    exact (em _).imp (fun h => ⟨h,h⟩) (fun h => ⟨h,h⟩)
  by_cases hcls : (propInList "delta_val" attr.classProperties).isSome ∨
    (propInList "delta_t" attr.classProperties).isSome
  · rw [if_pos (.inl hcls)] at h
    simp only [if_pos hcls] at h
    split at h
    next hd =>
      cases h
      obtain ⟨h1,h2⟩ := hs.spelled _ List.mem_cons_self hd.1 hd.2
      refine hdelete ?_ ?_ <;> unfold defaultProp
      · rw [h1]
        rfl
      · rw [h2]
        rfl
    next =>
      cases h
      exact startText_store _ _
  · obtain ⟨hc1,hc2⟩ := not_or.mp hcls
    by_cases huser : (propInList "delta_val" attr.userDefaultProperties).isSome ∨
      (propInList "delta_t" attr.userDefaultProperties).isSome
    · rw [if_pos (.inr huser)] at h
      simp only [if_neg hcls] at h
      split at h
      next hd =>
        cases h
        obtain ⟨h1,h2⟩ := hs.spelled _ (List.mem_cons_of_mem _ List.mem_cons_self) hd.1 hd.2
        refine hdelete ?_ ?_ <;> unfold defaultProp
        · rw [Option.not_isSome_iff_eq_none.mp hc1,h1]
          rfl
        · rw [Option.not_isSome_iff_eq_none.mp hc2,h2]
          rfl
      next =>
        cases h
        exact startText_store _ _
    · rw [if_neg (not_or.mpr ⟨hcls,huser⟩)] at h
      split at h
      next =>
        cases h
        exact startText_store _ _
      next hboth =>
        have hneither := hsplit.resolve_right hboth
        rw [if_pos hneither] at h
        cases h
        obtain ⟨hu1,hu2⟩ := not_or.mp huser
        obtain ⟨he1,he2⟩ := startText_delete (D := D) attr db
        have htime : timeText r = "0" := if_pos (ht.mp hneither.2)
        refine ⟨he1.trans ?_,he2.trans ?_⟩ <;> unfold defaultProp
        · rw [Option.not_isSome_iff_eq_none.mp hc1,Option.not_isSome_iff_eq_none.mp hu1,hv.mp hneither.1]
          rfl
        · rw [Option.not_isSome_iff_eq_none.mp hc2,Option.not_isSome_iff_eq_none.mp hu2,htime]
          rfl

theorem setRdsProp_ok {texts : RdsTexts} {l : List (AttPropDb D)} (h : (setRdsProp attr texts r).2 = .ok l) :
    if rdsChanged attr.dataType r (setRdsProp attr texts r).1 then setRdsPropDb D attr texts = .ok l else l = [] := by
  unfold setRdsProp at h ⊢
  split at h
  next => cases h
  next r' he =>
    dsimp only at h ⊢
    split at h
    next hch =>
      rw [if_pos hch]
      exact h
    next hch =>
      rw [if_neg hch]
      cases h
      rfl

theorem rds_back {new : RdsConf D} {l1 l2 : List (AttPropDb D)} (hk : RdsKept attr r) (hw : rdsWritten attr conf r)
    (h1 : setRdsProp attr conf r = (new,.ok l1)) (h2 : (setRdsProp attr (rdsTexts r) new).2 = .ok l2)
    (h : PutBack attr (Item.names .rds) l1 l2 d0 d1 d2)
    (h0 : rdsTexts (startRds D attr d0) = rdsTexts r ∧ (startRds D attr d0).rds = r.rds) :
    rdsTexts (startRds D attr d2) = rdsTexts r ∧ (startRds D attr d2).rds = r.rds := by
  have hv : "delta_val" ∈ Item.names .rds := List.mem_cons_self
  have ht : "delta_t" ∈ Item.names .rds := List.mem_cons_of_mem _ List.mem_cons_self
  have hwork := setRdsProp_ok h2
  unfold rdsWritten at hw
  rw [h1] at hw
  dsimp only at hw
  split at hwork
  next hch =>
    rw [if_pos hch] at hw
    obtain ⟨hval,htime⟩ := rdsStored_work hk hw hwork d1
    have hval2 : startText attr "delta_val" "Not specified" d2 = r.deltaValStr := by
      unfold startText at hval ⊢
      rw [h.back _ hv]
      exact hval
    have htime2 : startText attr "delta_t" "0" d2 = timeText r := by
      unfold startText at htime ⊢
      rw [h.back _ ht]
      exact htime
    by_cases hz : r.deltaT = 0
    · -- nothing is defined: a start finds nothing either
      have hno : r.deltaValStr = "Not specified" := hw.whole.mpr hz
      have hzero : timeText r = "0" := if_pos hz
      have hinitT : initDeltaT attr d2 = none := by
        unfold initDeltaT
        rw [htime2,hzero]
        exact if_pos (.inl rfl)
      have hinitV : initDeltaVal D attr d2 = none := by
        unfold initDeltaVal
        rw [hval2,hno]
        exact if_pos rfl
      have hflag : r.rds = false := by
        rw [hk.flag,hz]
        rfl
      refine ⟨?_,?_⟩
      · unfold rdsTexts startRds
        rw [hval2,hinitT,hz]
        rfl
      · unfold startRds initRds
        rw [hinitV,hflag]
        rfl
    · -- the texts are those found before
      have htext : timeText r = r.deltaTStr := if_neg hz
      have hne : r.deltaTStr ≠ "Not specified" :=
        not_notSpecified_of_read (hk.time.resolve_left hz).1
      have hval0 : startText attr "delta_val" "Not specified" d0 = r.deltaValStr := congrArg RdsTexts.deltaVal h0.1
      have htime0 : startText attr "delta_t" "0" d0 = r.deltaTStr := by
        have he := congrArg RdsTexts.deltaT h0.1
        rw [deltaT_text,deltaT_text,if_neg hz] at he
        split at he
        next => exact absurd he.symm hne
        next => exact he
      have hsame : startRds D attr d2 = startRds D attr d0 :=
        startRds_congr (hval2.trans hval0.symm) (htime2.trans (htext.trans htime0.symm))
      rw [hsame]
      exact h0
  next hch =>
    rw [if_neg hch] at hw
    cases hw
    subst hwork
    have hsame : startRds D attr d2 = startRds D attr d0 := by
      refine startRds_congr ?_ ?_ <;> unfold startText
      · rw [h.untouched rfl rfl hv]
      · rw [h.untouched rfl rfl ht]
    rw [hsame]
    exact h0

end Alarms

section Criteria
variable {p : ChangeProp} {conf : String}

variable (attr p) in
/-- The thresholds a start makes of the work for the ones a request has set. -/
def writtenChange (v : D.Dbl × D.Dbl) : D.Dbl × D.Dbl :=
  match validateDefault D attr p.name attr.userDefaultProperties,
    validateDefault D attr p.name attr.classProperties with
  | .ok usr,.ok cls => initChange D attr (updAttDatabase [⟨p.name,changeDb cls usr v⟩] []) p
  | _,_ => v

/-- The old thresholds set again are stored as they show; and so are those of the request when they
count as the old ones. -/
def changeWritten (attr : AttrDesc) (p : ChangeProp) (conf : String) (old : D.Dbl × D.Dbl) : Prop :=
  let new := (setOneEventProp attr p conf old).1
  let again := (setOneEventProp attr p (changeText old) new).1
  if (D.eq new.1 again.1 && D.eq new.2 again.2) = true then
    (D.eq old.1 new.1 && D.eq old.2 new.2) = true ∨ changeText (writtenChange attr p new) = changeText old
  else changeText (writtenChange attr p again) = changeText old

theorem setOneEventProp_work {old new : D.Dbl × D.Dbl} {l : List (AttPropDb D)}
    (h : setOneEventProp attr p conf old = (new,.ok l)) :
    if (D.eq old.1 new.1 && D.eq old.2 new.2) = true then l = []
    else ∀ db, initChange D attr (updAttDatabase l db) p = writtenChange attr p new := by
  unfold setOneEventProp at h
  unfold writtenChange
  cases hu : validateDefault D attr p.name attr.userDefaultProperties with
  | error e =>
    rw [hu] at h
    cases h
  | ok usr =>
    cases hc : validateDefault D attr p.name attr.classProperties with
    | error e =>
      rw [hu,hc] at h
      cases h
    | ok cls =>
      rw [hu,hc] at h
      dsimp only at h
      split at h
      next => cases h
      next v _ =>
        obtain ⟨rfl,hl⟩ := Prod.mk.inj h
        obtain rfl := Except.ok.inj hl
        split
        next => rfl
        next =>
          refine fun db => initChange_congr ?_
          rw [startProp_one,startProp_one,if_pos rfl,if_pos rfl]

theorem change_back {old new again : D.Dbl × D.Dbl} {l1 l2 : List (AttPropDb D)} (hw : changeWritten attr p conf old)
    (h1 : setOneEventProp attr p conf old = (new,.ok l1))
    (h2 : setOneEventProp attr p (changeText old) new = (again,.ok l2))
    (h : PutBack attr [p.name] l1 l2 d0 d1 d2) (h0 : changeText (initChange D attr d0 p) = changeText old) :
    changeText (initChange D attr d2 p) = changeText old := by
  have hwork1 := setOneEventProp_work h1
  have hwork2 := setOneEventProp_work h2
  have hback := initChange_congr (D := D) (h.back p.name List.mem_cons_self)
  unfold changeWritten at hw
  rw [h1] at hw
  dsimp only at hw
  rw [h2] at hw
  split at hwork2
  next hsame =>
    rw [if_pos hsame] at hw
    subst hwork2
    rw [hback]
    rcases h.failed with hf | hf
    · rw [← h0]
      exact congrArg changeText (initChange_congr (hf p.name List.mem_cons_self))
    · have hfirst : initChange D attr d1 p = initChange D attr (updAttDatabase l1 d0) p :=
        initChange_congr (hf p.name List.mem_cons_self)
      have hend : initChange D attr (updAttDatabase ([] : List (AttPropDb D)) d1) p = initChange D attr d1 p := rfl
      rw [hend,hfirst]
      split at hwork1
      next =>
        subst hwork1
        exact h0
      next hne =>
        rw [hwork1 d0]
        exact hw.resolve_left hne
  next hne =>
    rw [if_neg hne] at hw
    rw [hback,hwork2 d1]
    exact hw

end Criteria

section Periods
variable {p : PeriodProp} {conf : String}

/-- The request leaves the period when setting it again is no change; and a default that is taken for
the period is read as it by a start. -/
def periodWritten (D : Doubles) (attr : AttrDesc) (p : PeriodProp) (conf : String) (old : Int32) : Prop :=
  let new := (setOneEventPeriod D attr p conf old).1
  if (setOneEventPeriod D attr p (periodText p old) new).1 = new then new = old
  else storePeriod D attr p (periodText p old) = false →
    periodText p (initPeriod attr [] p) = periodText p old

theorem initPeriod_positive (db : List AttrProperty) : 0 < (initPeriod attr db p).toInt := by
  have hd := default_positive p
  unfold initPeriod
  split
  next n hn =>
    split
    next hpos =>
      obtain ⟨text,-,ht⟩ := Option.bind_eq_some_iff.mp hn
      unfold readSignedEnd at ht
      have hr := of_decide_eq_true (Option.filter_eq_some_iff.mp ht).2
      rw [toInt_ofInt ⟨hpos,by unfold intMax; omega⟩]
      exact hpos
    next => exact hd.1
  next => exact hd.1

theorem periodText_positive {a b : Int32} (h : periodText p a = periodText p b) (ha : 0 < a.toInt) : 0 < b.toInt := by
  by_cases hb : b.toInt = intMax
  · rw [hb]
    decide
  · have htext : periodText p b = intString b.toInt := if_neg hb
    have hnum : numeral (periodText p a) = some b.toInt := by
      rw [h,htext]
      exact numeral_intString _
    by_cases hm : a.toInt = intMax
    · unfold periodText at hnum
      rw [if_pos hm] at hnum
      cases p with
      | eventPeriod =>
        have h1000 : numeral "1000" = some 1000 := by decide
        rw [← Option.some.inj (h1000.symm.trans hnum)]
        decide
      | archivePeriod =>
        have hns : numeral "Not specified" = none := by decide
        cases hns.symm.trans hnum
    · unfold periodText at hnum
      rw [if_neg hm,numeral_intString] at hnum
      rw [← Option.some.inj hnum]
      exact ha

variable (D attr) in
/-- The period a text of the configuration is stored as. -/
theorem periodDb_shown {old : Int32} (hpos : 0 < old.toInt) :
    ∃ k : Int32, 0 < k.toInt ∧ periodText p k = periodText p old ∧
      ∀ l : List (AttPropDb D), storePeriod D attr p (periodText p old) = true →
        periodDb D attr p (periodText p old) = .ok l → l = [⟨p.name,.upd (intString k.toInt)⟩] := by
  have hnumber : ∀ k : Int32, ∀ l : List (AttPropDb D), storePeriod D attr p (intString k.toInt) = true →
      periodDb D attr p (intString k.toInt) = .ok l → l = [⟨p.name,.upd (intString k.toInt)⟩] := by
    intro k l hs hl
    have hk := numeral_not_keyword (numeral_intString k.toInt)
    unfold periodDb at hl
    rw [if_pos hs,if_neg (fun h => hk (.inl h)),if_neg (fun h => hk (.inr (.inl h))),readPeriod_intString] at hl
    cases hl
    rfl
  by_cases hm : old.toInt = intMax
  · have htext : ∀ k : Int32, k.toInt = intMax → periodText p old = periodText p k := by
      intro k hk
      unfold periodText
      rw [if_pos hm,if_pos hk]
    cases p with
    | eventPeriod =>
      have h1000 : periodText .eventPeriod old = intString (1000 : Int32).toInt := if_pos hm
      refine ⟨1000,by decide,?_,fun l => ?_⟩
      · rw [h1000]
        rfl
      · rw [h1000]
        exact hnumber 1000 l
    | archivePeriod =>
      have hns : periodText .archivePeriod old = "Not specified" := if_pos hm
      refine ⟨PeriodProp.archivePeriod.default,by decide,(htext _ (by decide)).symm,fun l hs hl => ?_⟩
      rw [hns] at hs hl
      unfold periodDb at hl
      rw [if_pos hs,if_pos notSpecified_self] at hl
      cases hl
      rfl
  · have htext : periodText p old = intString old.toInt := if_neg hm
    refine ⟨old,hpos,rfl,fun l => ?_⟩
    rw [htext]
    exact hnumber old l

theorem setOneEventPeriod_work {old new : Int32} {l : List (AttPropDb D)}
    (h : setOneEventPeriod D attr p conf old = (new,.ok l)) :
    if new = old then l = [] else periodDb D attr p conf = .ok l := by
  unfold setOneEventPeriod at h
  split at h
  next => cases h
  next n _ =>
    obtain ⟨rfl,hl⟩ := Prod.mk.inj h
    split at hl
    next he =>
      rw [if_pos he]
      cases hl
      rfl
    next hne =>
      rw [if_neg hne]
      exact hl

theorem period_back {old new again : Int32} {l1 l2 : List (AttPropDb D)} (hw : periodWritten D attr p conf old)
    (h1 : setOneEventPeriod D attr p conf old = (new,.ok l1))
    (h2 : setOneEventPeriod D attr p (periodText p old) new = (again,.ok l2))
    (h : PutBack attr [p.name] l1 l2 d0 d1 d2) (h0 : periodText p (initPeriod attr d0 p) = periodText p old) :
    periodText p (initPeriod attr d2 p) = periodText p old := by
  have hwork1 := setOneEventPeriod_work h1
  have hwork2 := setOneEventPeriod_work h2
  unfold periodWritten at hw
  rw [h1] at hw
  dsimp only at hw
  rw [h2] at hw
  split at hwork2
  next hsame =>
    rw [if_pos hsame] at hw
    rw [if_pos hw] at hwork1
    rw [initPeriod_congr (h.untouched hwork1 hwork2 List.mem_cons_self)]
    exact h0
  next hne =>
    rw [if_neg hne] at hw
    have hback : initPeriod attr d2 p = initPeriod attr (updAttDatabase l2 d1) p :=
      initPeriod_congr (h.back p.name List.mem_cons_self)
    rw [hback]
    cases hs : storePeriod D attr p (periodText p old) with
    | true =>
      have hpos := periodText_positive h0 (initPeriod_positive d0)
      obtain ⟨k,hk,htext,hdb⟩ := periodDb_shown D attr hpos
      have hmax : k.toInt ≤ intMax := by
        have := k.toInt_lt
        unfold intMax
        omega
      rw [hdb l2 hs hwork2,initPeriod_upd (numeral_intString _) ⟨hk,hmax⟩,Int32.ofInt_toInt]
      exact htext
    | false =>
      unfold periodDb at hwork2
      rw [hs,if_neg Bool.false_ne_true] at hwork2
      cases hwork2
      rw [← hw hs]
      refine congrArg (periodText p) (initPeriod_congr ?_)
      rw [startProp_one,if_pos rfl,startProp_eq]
      rfl

end Periods

end Items

end CppTango.Device.Conf
