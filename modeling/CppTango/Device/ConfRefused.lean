import CppTango.Device.ConfUndo
import CppTango.Device.ConfRanges
import CppTango.Lib.Steps

namespace CppTango.Device.Conf

open CppTango.Lib StrProps

variable {D : Doubles} {attr : AttrDesc}

section Call
variable {c : Call D} {conf : AttributeConfig} {s : AttrState D}

/-- A property is refused: by its setter, or by the check of the ranges. -/
def refused (attr : AttrDesc) (c : Call D) (conf : AttributeConfig) (s : AttrState D) : Bool :=
  match setProperties attr c.mem c.stack conf s with
  | (_,.error _) => true
  | (s1,.ok _) =>
    (checkRangeCoherency attr s1 (s.range .minValue).checkIt (s.range .maxValue).checkIt).isSome

/-- Each item is kept by setting it again. -/
def Kept (attr : AttrDesc) (c : Call D) (s : AttrState D) : Prop :=
  ∀ i ∈ items attr, itemKept attr c.mem c.stackBack s i

/-- What a refused call leaves: the old configuration, set again from where the new one ended. -/
theorem refused_state (h : refused attr c conf s = true) :
    (setUpdProperties attr c conf s).1 =
      (setProperties attr c.mem c.stackBack (getProperties attr s)
        (setProperties attr c.mem c.stack conf s).1).1 := by
  unfold refused at h
  unfold setUpdProperties
  cases hs : setProperties attr c.mem c.stack conf s with
  | mk s1 r =>
    cases r with
    | error e => rfl
    | ok vDb =>
      rw [hs] at h
      obtain ⟨e,he⟩ := Option.isSome_iff_exists.mp h
      dsimp only at he ⊢
      rw [he]
      rfl

theorem rds_item (h : .rds ∈ items attr) : ¬ noNumber attr.dataType := by
  intro hn
  have hor : isState attr.toAttr ∨ noNumber attr.dataType := .inr hn
  revert h
  unfold items oldItems
  rw [if_pos hor]
  split <;> decide

/-- Both passes over the properties, item by item. -/
def passes (attr : AttrDesc) (c : Call D) (conf : AttributeConfig) (s : AttrState D) :
    List (Paired Item (AttrState D) (AttPropDb D) DevErrorList) :=
  (items attr).map (fun i =>
    ⟨i,itemSetter attr c.mem c.stack conf i,
      itemSetter attr c.mem c.stackBack (getProperties attr s) i⟩)

theorem item_undoes {i : Item} (hi : i ∈ items attr) (hk : itemKept attr c.mem c.stackBack s i) :
    (⟨i,itemSetter attr c.mem c.stack conf i,
      itemSetter attr c.mem c.stackBack (getProperties attr s) i⟩ :
        Paired Item (AttrState D) (AttPropDb D) DevErrorList).Undoes looks s := by
  cases i with
  | hardCoded | hardCodedAgain =>
    refine .inl ?_
    dsimp only [Paired.second,itemSetter]
    rw [checkHardCoded_own]
    exact checkOnly_restores _ (fun _ _ => trivial)
  | level =>
    refine .inl ?_
    dsimp only [Paired.second,itemSetter,getProperties]
    rw [if_neg (fun h => h rfl)]
    exact checkOnly_restores _ (fun _ _ => trivial)
  | str p => exact .inl (setStr_restores hk)
  | range p => exact .inl (setRange_restores hk)
  | rds => exact .inl (setRds_restores (rds_item hi) hk)
  | change p => exact setChange_undoes _ hk
  | period p => exact .inl (setPeriod_restores p)

theorem keeps_looks {mem : Memorized D} {stack : RangeProp → D.Dbl × D.Dbl} (i : Item) :
    Keeps looks ⟨i,itemSetter attr mem stack conf i⟩ :=
  fun j t hne => looks_of_same (itemSetter_keeps i j t hne)

/-- A refused configuration leaves every item as it was, when setting it again keeps it. -/
theorem refused_call_looks (h : refused attr c conf s = true) (hk : Kept attr c s) (j : Item) :
    looks j (setUpdProperties attr c conf s).1 s := by
  rw [refused_state h]
  have hfirst : ∀ p ∈ passes attr c conf s, Keeps looks p.first :=
    List.forall_mem_map.mpr (fun i _ => keeps_looks i)
  have hsecond : ∀ p ∈ passes attr c conf s, Keeps looks p.second :=
    List.forall_mem_map.mpr (fun i _ => keeps_looks i)
  have hcells : (passes attr c conf s).map Paired.cell = items attr := by
    unfold passes
    rw [List.map_map]
    exact List.map_id _
  have hundo : ∀ p ∈ passes attr c conf s, p.Undoes looks s :=
    List.forall_mem_map.mpr (fun i hi => item_undoes hi (hk i hi))
  have hall := setAll_undone looks_equivalence hfirst hsecond (hcells ▸ items_nodup attr) hundo j
  unfold passes at hall
  rw [List.map_map,List.map_map] at hall
  exact hall

/-- A refused configuration, from any state whose items are kept by setting them again. -/
theorem refused_call_kept (h : refused attr c conf s = true) (hk : Kept attr c s) :
    getProperties attr (setUpdProperties attr c conf s).1 = getProperties attr s ∧
      alarmConf (setUpdProperties attr c conf s).1 = alarmConf s :=
  looks_config (refused_call_looks h hk)

end Call

section Runs
variable {s : AttrState D} {last : Call D × AttributeConfig}

/-- A call of `set_upd_properties` as a step. -/
def confStep (attr : AttrDesc) (s : AttrState D) (call : Call D × AttributeConfig) : AttrState D :=
  (setUpdProperties attr call.1 call.2 s).1

/-- In a run whose refused calls find items that are kept by setting them again, a refused call
changes neither the configuration nor a flag. -/
theorem refused_conf_changes_nothing (calls : List (Call D × AttributeConfig))
    (hr : Along (confStep attr)
      (fun s call => refused attr call.1 call.2 s = true → Kept attr call.1 s) s (calls ++ [last]))
    (h : refused attr last.1 last.2 (calls.foldl (confStep attr) s) = true) :
    getProperties attr (confStep attr (calls.foldl (confStep attr) s) last) =
        getProperties attr (calls.foldl (confStep attr) s) ∧
      alarmConf (confStep attr (calls.foldl (confStep attr) s) last) =
        alarmConf (calls.foldl (confStep attr) s) :=
  refused_call_kept h ((along_append.mp hr).2.1 h)

/-- An attribute as it starts without any property: the strings have their library defaults. -/
def plainState (attr : AttrDesc) : AttrState wholeNumbers :=
  { sampleState with str := fun p => notSpec attr.toAttr p }

theorem plainState_kept : Kept sampleAttr sampleCall (plainState sampleAttr) := by
  intro i _
  cases i with
  | hardCoded | hardCodedAgain | level | period p => trivial
  | str p => cases p <;> exact ⟨by decide,by decide,by decide⟩
  | range p => exact .inl ⟨rfl,rfl⟩
  | rds => exact ⟨.inl rfl,⟨_,rfl⟩,.inl rfl,rfl⟩
  | change p =>
    have hv : validateChangeProperties wholeNumbers sampleAttr p.name "Not specified" =
        .ok ⟨(intMax,intMax),(false,false),(false,false)⟩ := rfl
    exact ⟨_,hv,rfl,rfl,rfl⟩

theorem bad_number_changes_nothing :
    getProperties sampleAttr
        (confStep sampleAttr (plainState sampleAttr) (sampleCall,sampleConf "abc" "5")) =
      getProperties sampleAttr (plainState sampleAttr) ∧
    alarmConf (confStep sampleAttr (plainState sampleAttr) (sampleCall,sampleConf "abc" "5")) =
      alarmConf (plainState sampleAttr) :=
  refused_conf_changes_nothing [] ⟨fun _ => plainState_kept,trivial⟩ (by decide)

/-- An attribute whose unit has a default in the code of the device. -/
def unitAttr : AttrDesc := { sampleAttr with userDefaultProperties := [⟨"unit","mm"⟩] }

def unitState : AttrState wholeNumbers :=
  { plainState unitAttr with str := Function.update (plainState unitAttr).str .unit "mm" }

/-- The unit is given up. -/
def noUnitConf : AttributeConfig :=
  { getProperties unitAttr unitState with str := Function.update unitState.str .unit "Not specified" }

/-- A limit that is no number, and no unit as it is now. -/
def badLimitConf : AttributeConfig :=
  { getProperties unitAttr unitState with
    str := Function.update unitState.str .unit "Not specified"
    range := Function.update (fun _ => "Not specified") .minValue "abc" }

/-- The empty unit is saved as an empty text, which means the default when it is set again. -/
theorem refused_limit_changes_unit :
    (setUpdProperties unitAttr sampleCall noUnitConf unitState).2 = none ∧
      refused unitAttr sampleCall badLimitConf
        (confStep unitAttr unitState (sampleCall,noUnitConf)) = true ∧
      (getProperties unitAttr (confStep unitAttr unitState (sampleCall,noUnitConf))).str .unit = "" ∧
      (getProperties unitAttr
        ([(sampleCall,noUnitConf),(sampleCall,badLimitConf)].foldl (confStep unitAttr) unitState)).str .unit =
          "mm" := by
  refine ⟨by decide,by decide,by decide,by decide⟩

end Runs

end CppTango.Device.Conf
