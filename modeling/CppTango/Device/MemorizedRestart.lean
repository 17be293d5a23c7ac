import CppTango.Device.MemorizedDb

namespace CppTango.Device.Memorized

open CppTango.Lib CppTango.Device.Write

section Loop
variable {d : MemDevice} {db : Nat → Option String}

/-- The element `set_memorized_values` makes of a value. -/
def element (m : MemAttr) (v : Value) : AttributeValue Value := ⟨m.name,1,0,[v]⟩

/-- The value `set_memorized_values` sets again. -/
def found (db : Nat → Option String) (i : Nat) (m : MemAttr) : Option Value :=
  if writable m = true ∧ m.memorized = true ∧ memValue db i ≠ notUsed then
    (memRead m.dataType (memValue db i)).bind (fun v =>
      if checkWrittenValue (m.conf false) (element m v) = .passed then some v else none)
  else none

/-- The value it gives to the write method too. -/
def rewritten (db : Nat → Option String) (i : Nat) (m : MemAttr) : Option Value :=
  if m.memorizedInit then found db i m else none

def setAgain (db : Nat → Option String) (p : MemAttr × Nat) (w : WAttribute Value) :
    WAttribute Value :=
  match found db p.2 p.1 with
  | some v => setWriteValue v w
  | none => w

theorem mark_mark {s : Started} {i : Nat} (h : s.memorized i = true) :
    (s.mark i false).mark i true = s := by
  unfold Started.mark
  simp only [Function.update_idem]
  rw [← h,Function.update_eq_self]

/-- One turn of the loop in closed form. -/
def turn (db : Nat → Option String) (i : Nat) (m : MemAttr)
    (acc : Started × List (AttributeValue Value)) : Started × List (AttributeValue Value) :=
  ({ acc.1 with
      wattrs := Function.update acc.1.wattrs i (setAgain db (m,i) (acc.1.wattrs i))
      memorized := Function.update acc.1.memorized i
        (acc.1.memorized i && (rewritten db i m).isNone) },
    acc.2 ++ ((rewritten db i m).map (element m)).toList)

theorem turn_none {i : Nat} {m : MemAttr} (h : found db i m = none)
    (acc : Started × List (AttributeValue Value)) : turn db i m acc = acc := by
  have hr : rewritten db i m = none := by simp [rewritten,h]
  simp [turn,setAgain,h,hr]

theorem restoreOne_eq {i : Nat} {m : MemAttr} {s : Started} {attVal : List (AttributeValue Value)}
    (h : s.memorized i = m.memorized) : restoreOne db i m (s,attVal) = turn db i m (s,attVal) := by
  unfold restoreOne
  by_cases hw : writable m = false
  · rw [turn_none (by simp [found,hw])]
    simp [hw]
  by_cases hm : s.memorized i = false
  · rw [turn_none (by simp [found,← h,hm])]
    simp [hw,hm]
  by_cases hu : memValue db i = notUsed
  · rw [turn_none (by simp [found,hu])]
    simp [hw,hm,hu]
  rw [Bool.not_eq_false] at hw hm
  simp only [hw,hm,hu,if_false,Bool.true_eq_false]
  cases hr : memRead m.dataType (memValue db i) with
  | none =>
    rw [turn_none (by simp [found,hr])]
    simp only [mark_mark hm]
  | some v =>
    by_cases hc : checkWrittenValue (m.conf false) (element m v) = .passed
    · have hf : found db i m = some v := by simp [found,hw,← h,hm,hu,hr,hc]
      unfold element at hc
      simp only [hc]
      unfold turn setAgain rewritten
      simp only [hf,Started.mark,hm]
      cases m.memorizedInit with
      | true => simp [element]
      | false => simp
    · rw [turn_none (by simp [found,hr,hc])]
      unfold element at hc
      cases hp : checkWrittenValue (m.conf false) ⟨m.name,1,0,[v]⟩ with
      | passed => exact absurd hp hc
      | failed e => simp only [hp,mark_mark hm]
      | outOfRange => simp only [hp,mark_mark hm]

def keepFlag (db : Nat → Option String) (p : MemAttr × Nat) (flag : Bool) : Bool :=
  flag && (rewritten db p.2 p.1).isNone

def elements (db : Nat → Option String) (ps : List (MemAttr × Nat)) : List (AttributeValue Value) :=
  ps.filterMap (fun p => (rewritten db p.2 p.1).map (element p.1))

theorem restore_loop {ps : List (MemAttr × Nat)} (hn : (ps.map Prod.snd).Nodup) {s : Started}
    (hs : ∀ p ∈ ps, s.memorized p.2 = p.1.memorized) (attVal : List (AttributeValue Value)) :
    ps.foldl (fun acc p => restoreOne db p.2 p.1 acc) (s,attVal) =
      ({ s with
          wattrs := updSlots Prod.snd (setAgain db) ps s.wattrs
          memorized := updSlots Prod.snd (keepFlag db) ps s.memorized },
        attVal ++ elements db ps) := by
  induction ps generalizing s attVal with
  | nil => simp [updSlots,elements]
  | cons p ps ih =>
    rw [List.map_cons,List.nodup_cons] at hn
    rw [List.foldl_cons,restoreOne_eq (hs p List.mem_cons_self)]
    unfold turn
    rw [ih hn.2]
    · have he : elements db (p :: ps) =
          ((rewritten db p.2 p.1).map (element p.1)).toList ++ elements db ps := by
        unfold elements
        rw [List.filterMap_cons]
        cases (rewritten db p.2 p.1).map (element p.1) <;> rfl
      rw [updSlots_cons,updSlots_cons,he,List.append_assoc]
      rfl
    · intro q hq
      have hne : q.2 ≠ p.2 := fun he => hn.1 (he ▸ List.mem_map_of_mem hq)
      simp only [Function.update_of_ne hne]
      exact hs q (List.mem_cons_of_mem _ hq)

variable (d db) in
theorem restoreAll_eq : restoreAll d db (started d) =
    (⟨updSlots Prod.snd (setAgain db) d.attrs.zipIdx d.initial,
      updSlots Prod.snd (keepFlag db) d.attrs.zipIdx d.memorizedFlag,fun _ => none⟩,
      elements db d.attrs.zipIdx) := by
  unfold restoreAll
  rw [restore_loop]
  · rfl
  · rw [List.zipIdx_map_snd]
    exact List.nodup_range'
  · intro p hp
    have hi := List.mem_zipIdx_iff_getElem?.mp hp
    simp [started,MemDevice.memorizedFlag,hi]

variable (db) in
/-- What the loop leaves of one attribute. -/
theorem restoreAll_attr {i : Nat} {m : MemAttr} (hi : d.attrs[i]? = some m) :
    (restoreAll d db (started d)).1.wattrs i = setAgain db (m,i) (d.initial i) ∧
      (restoreAll d db (started d)).1.memorized i =
        (m.memorized && (rewritten db i m).isNone) := by
  have hmem : (m,i) ∈ d.attrs.zipIdx := List.mem_zipIdx_iff_getElem?.mpr hi
  have hn : (d.attrs.zipIdx.map Prod.snd).Nodup := by
    rw [List.zipIdx_map_snd]
    exact List.nodup_range'
  rw [restoreAll_eq]
  refine ⟨updSlots_of_mem hn hmem _,?_⟩
  have hf : d.memorizedFlag i = m.memorized := by simp [MemDevice.memorizedFlag,hi]
  rw [← hf]
  exact updSlots_of_mem hn hmem _

end Loop

section Elements
variable {d : MemDevice} {db : Nat → Option String} {u : UserCode}

theorem mem_elements {e : AttributeValue Value} : e ∈ elements db d.attrs.zipIdx ↔
    ∃ i m v, d.attrs[i]? = some m ∧ rewritten db i m = some v ∧ e = element m v := by
  unfold elements
  rw [List.mem_filterMap]
  constructor
  · rintro ⟨⟨m,i⟩,hp,he⟩
    obtain ⟨v,hv,rfl⟩ := Option.map_eq_some_iff.mp he
    exact ⟨i,m,v,List.mem_zipIdx_iff_getElem?.mp hp,hv,rfl⟩
  · rintro ⟨i,m,v,hi,hv,rfl⟩
    exact ⟨(m,i),List.mem_zipIdx_iff_getElem?.mpr hi,by rw [hv]; rfl⟩

variable (db) in
theorem elements_names (hn : d.Distinct) :
    ((elements db d.attrs.zipIdx).map (fun v => lowerName v.name)).Nodup := by
  unfold MemDevice.Distinct at hn
  rw [← List.zipIdx_map_fst 0 d.attrs,List.map_map,List.Nodup,List.pairwise_map] at hn
  unfold elements
  rw [List.Nodup,List.pairwise_map,List.pairwise_filterMap]
  apply hn.imp
  intro p q hpq a ha b hb he
  obtain ⟨v,-,rfl⟩ := Option.map_eq_some_iff.mp ha
  obtain ⟨w,-,rfl⟩ := Option.map_eq_some_iff.mp hb
  exact hpq he

theorem attrInd_name (hn : d.Distinct) {i : Nat} {m : MemAttr} (hi : d.attrs[i]? = some m) :
    getAttrIndByName (d.attrs.map MemAttr.name) m.name = .ok i := by
  unfold getAttrIndByName
  cases hf : (d.attrs.map MemAttr.name).findIdx? (fun n => lowerName n = lowerName m.name) with
  | none =>
    have hm : m.name ∈ d.attrs.map MemAttr.name := List.mem_map_of_mem (List.mem_of_getElem? hi)
    have := List.findIdx?_eq_none_iff.mp hf _ hm
    simp at this
  | some j =>
    obtain ⟨hj,hl,-⟩ := List.findIdx?_eq_some_iff_getElem.mp hf
    rw [List.length_map] at hj
    rw [List.getElem_map] at hl
    have he : j = i := same_index hn (List.getElem?_eq_getElem hj) hi (by simpa using hl)
    rw [he]

theorem rewritten_some {i : Nat} {m : MemAttr} {v : Value} (h : rewritten db i m = some v) :
    m.memorizedInit = true ∧ found db i m = some v := by
  unfold rewritten at h
  split at h
  · exact ⟨‹_›,h⟩
  · cases h

theorem found_some {i : Nat} {m : MemAttr} {v : Value} (h : found db i m = some v) :
    writable m = true ∧ m.memorized = true ∧
      checkWrittenValue (m.conf false) (element m v) = .passed := by
  unfold found at h
  split at h
  next hc =>
    obtain ⟨w,-,hw⟩ := Option.bind_eq_some_iff.mp h
    split at hw
    · cases hw
      exact ⟨hc.1,hc.2.1,‹_›⟩
    · cases hw
  next => cases h

theorem select_element (hn : d.Distinct) {flags : Nat → Bool} {i : Nat} {m : MemAttr}
    (hi : d.attrs[i]? = some m) (hw : writable m = true) (v : Value) :
    select (impl d flags u none) (element m v) = .ok i := by
  unfold select
  have hname : getAttrIndByName (impl d flags u none).names (element m v).name = .ok i := by
    rw [impl_names]
    exact attrInd_name hn hi
  have hc : checkConf (m.conf (flags i)) (element m v) = none := by
    unfold writable at hw
    unfold checkConf
    cases hm : m.writable <;> simp_all [MemAttr.conf]
  simp only [hname,impl_attr,hi,Option.map_some,hc]

/-- The device and the values of the one call at start-up. -/
def restartDev (d : MemDevice) (u : UserCode) (db : Nat → Option String) : DeviceImpl Value :=
  impl d (restoreAll d db (started d)).1.memorized u none

def restartWork (d : MemDevice) (u : UserCode) (db : Nat → Option String) : List (AttIdx Value) :=
  selected (restartDev d u db) (elements db d.attrs.zipIdx)

theorem mem_restartWork (hn : d.Distinct) {a : AttIdx Value} (ha : a ∈ restartWork d u db) :
    ∃ m v, d.attrs[a.idxInMultiAttr]? = some m ∧ rewritten db a.idxInMultiAttr m = some v ∧
      a.value = element m v := by
  obtain ⟨hv,hs⟩ := mem_selected.mp ha
  obtain ⟨i,m,v,hi,hr,he⟩ := mem_elements.mp (List.mem_of_getElem? hv)
  have hw := (found_some (rewritten_some hr).2).1
  rw [he,restartDev,select_element hn hi hw] at hs
  cases hs
  exact ⟨m,v,hi,hr,he⟩

theorem restartWork_exists (hn : d.Distinct) {i : Nat} {m : MemAttr} {v : Value}
    (hi : d.attrs[i]? = some m) (hr : rewritten db i m = some v) :
    ∃ a ∈ restartWork d u db, a.idxInMultiAttr = i ∧ a.value = element m v := by
  obtain ⟨k,hk⟩ := List.mem_iff_getElem?.mp (mem_elements.mpr ⟨i,m,v,hi,hr,rfl⟩)
  refine ⟨⟨k,i,element m v⟩,mem_selected.mpr ⟨hk,?_⟩,rfl,rfl⟩
  exact select_element hn hi (found_some (rewritten_some hr).2).1 v

/-- Every element passes its check, and is not memorized while it is written. -/
theorem restartWork_good (hn : d.Distinct) {a : AttIdx Value} (ha : a ∈ restartWork d u db) :
    (restartDev d u db).check a = .passed ∧ (restartDev d u db).isMemorized a = false := by
  obtain ⟨m,v,hi,hr,he⟩ := mem_restartWork hn ha
  have hp := (found_some (rewritten_some hr).2).2.2
  have hf := (restoreAll_attr db hi).2
  unfold DeviceImpl.check DeviceImpl.isMemorized DeviceImpl.conf restartDev
  rw [impl_attr,hi]
  refine ⟨?_,?_⟩
  · rw [he]
    exact hp
  · simp [MemAttr.conf,hf,hr]

/-- The place of an element in the list belongs to its attribute. -/
theorem attrOf_some (hn : d.Distinct) {k i : Nat}
    (h : attrOf d (elements db d.attrs.zipIdx) k = some i) : ∃ m v, d.attrs[i]? = some m ∧
      rewritten db i m = some v ∧ (elements db d.attrs.zipIdx)[k]? = some (element m v) := by
  unfold attrOf at h
  obtain ⟨e,hk,hg⟩ := Option.bind_eq_some_iff.mp h
  obtain ⟨i',m,v,hi,hr,rfl⟩ := mem_elements.mp (List.mem_of_getElem? hk)
  change (getAttrIndByName (d.attrs.map MemAttr.name) m.name).toOption = _ at hg
  rw [attrInd_name hn hi] at hg
  cases hg
  exact ⟨m,v,hi,hr,hk⟩

theorem attrOf_iff (hn : d.Distinct) {a : AttIdx Value} (ha : a ∈ restartWork d u db) (k : Nat) :
    attrOf d (elements db d.attrs.zipIdx) k = some a.idxInMultiAttr ↔ k = a.idxInNames := by
  constructor
  · intro h
    obtain ⟨m,v,hi,hr,hk⟩ := attrOf_some hn h
    have ha' : (⟨k,a.idxInMultiAttr,element m v⟩ : AttIdx Value) ∈ restartWork d u db :=
      mem_selected.mpr ⟨hk,select_element hn hi (found_some (rewritten_some hr).2).1 v⟩
    have hnd := selected_idxInMultiAttr_nodup (restartDev d u db) (elements_names db hn)
    rw [← List.inj_on_of_nodup_map hnd ha' ha rfl]
  · rintro rfl
    obtain ⟨m,v,hi,hr,he⟩ := mem_restartWork hn ha
    unfold attrOf
    rw [(mem_selected.mp ha).1,he]
    change (getAttrIndByName (d.attrs.map MemAttr.name) m.name).toOption = _
    rw [attrInd_name hn hi]
    rfl

end Elements

section Failures
variable (d : MemDevice) (u : UserCode)

/-- A `MultiDevFailed` of `write_attr_hardware` is about attributes it was called for, each named
once. -/
def UserCode.NamesAsked : Prop :=
  ∀ inds es, u.writeAttrHardware inds = .multiDevFailed es →
    (es.map (fun n => lowerName n.1)).Nodup ∧
      ∀ n ∈ es, ∃ i ∈ inds, ∃ m, d.attrs[i]? = some m ∧ lowerName m.name = lowerName n.1

def refused (m : MemAttr) : DevErrorList :=
  thrown "API_AttrNotAllowed" ("It is currently not allowed to write attribute " ++ m.name ++
    ". The device state is " ++ d.stateName) origin

/-- The attributes whose write method returned, of those to be written. -/
def returned (inds : List Nat) : List Nat :=
  inds.filter (fun i => u.isAllowed i && (u.writeError i).isNone)

def hardwareFailure (inds : List Nat) (m : MemAttr) : Option DevErrorList :=
  if 4 ≤ d.idlVersion then
    match u.writeAttrHardware (returned u inds) with
    | .done => none
    | .devFailed e => some e
    | .multiDevFailed es => (es.find? (fun n => lowerName n.1 = lowerName m.name)).map Prod.snd
  else none

/-- Why the write of an attribute fails, when all of `inds` are to be written. -/
def writeFailure (inds : List Nat) (i : Nat) (m : MemAttr) : Option DevErrorList :=
  if u.isAllowed i then (u.writeError i).or (hardwareFailure d u inds m) else some (refused d m)

variable {d u} {db : Nat → Option String}

theorem writeOne_impl {flags : Nat → Bool} {a : AttIdx Value} {m : MemAttr}
    (hi : d.attrs[a.idxInMultiAttr]? = some m) : (impl d flags u none).writeOne a =
      if u.isAllowed a.idxInMultiAttr then u.writeError a.idxInMultiAttr else some (refused d m) := by
  unfold DeviceImpl.writeOne notAllowed DeviceImpl.conf
  rw [impl_attr,hi]
  change (if u.isAllowed a.idxInMultiAttr = true then _ else _) = _
  split
  · simp only [impl]
    cases u.writeError a.idxInMultiAttr <;> rfl
  · rfl

/-- The indexes of the attributes to be written. -/
def rewrittenInds (d : MemDevice) (db : Nat → Option String) : List Nat :=
  (d.attrs.zipIdx.filter (fun p => (rewritten db p.2 p.1).isSome)).map Prod.snd

variable (u db) in
theorem none_rejected (hn : d.Distinct) :
    (selectAll (restartDev d u db) 0 (elements db d.attrs.zipIdx)).2 = [] := by
  rw [selectAll_eq]
  apply List.filterMap_eq_nil_iff.mpr
  intro p hp
  have hm := List.mem_of_getElem? (List.mem_zipIdx_iff_getElem?.mp hp)
  obtain ⟨i,m,v,hi,hr,he⟩ := mem_elements.mp hm
  unfold rejectedAt
  rw [he,restartDev,select_element hn hi (found_some (rewritten_some hr).2).1]

variable (u db) in
theorem restartWork_inds (hn : d.Distinct) :
    (restartWork d u db).map AttIdx.idxInMultiAttr = rewrittenInds d db := by
  have hvals : (restartWork d u db).map AttIdx.value = elements db d.attrs.zipIdx := by
    have h := selected_values (none_rejected u db hn) (fun _ => true) (fun _ => true)
      (fun _ _ => rfl)
    simpa [restartWork] using h
  have hok : (restartWork d u db).map (fun a => select (restartDev d u db) a.value) =
      (restartWork d u db).map (fun a => .ok a.idxInMultiAttr) :=
    List.map_congr_left (fun a ha => (mem_selected.mp ha).2)
  have hel : (elements db d.attrs.zipIdx).map (select (restartDev d u db)) =
      (rewrittenInds d db).map .ok := by
    unfold elements rewrittenInds
    rw [List.map_filterMap,List.map_map]
    rw [← List.filterMap_eq_map,List.filterMap_filter]
    apply List.filterMap_congr
    intro p hp
    have hi := List.mem_zipIdx_iff_getElem?.mp hp
    cases hr : rewritten db p.2 p.1 with
    | none => rfl
    | some v =>
      simp only [Option.map_some,Option.isSome_some,if_true,Function.comp_apply]
      rw [restartDev,select_element hn hi (found_some (rewritten_some hr).2).1]
  have hinj : Function.Injective (Except.ok : Nat → Except DevErrorList Nat) := by
    intro a b h
    cases h
    rfl
  apply List.map_injective_iff.mpr hinj
  rw [← hel,← hvals,List.map_map,List.map_map]
  exact hok.symm

theorem later_failure (hn : d.Distinct) {a : AttIdx Value} (ha : a ∈ restartWork d u db) {m : MemAttr}
    (hi : d.attrs[a.idxInMultiAttr]? = some m) :
    laterErrors (restartDev d u db) (restartWork d u db) a =
      writeFailure d u (rewrittenInds d db) a.idxInMultiAttr m := by
  have hstore : storeErrors (restartDev d u db) (stored (restartDev d u db) (restartWork d u db)) a
      = none := by
    unfold storeErrors
    rw [(restartWork_good hn ha).2]
    simp
  have hret : ((restartWork d u db).filter (fun a => (restartDev d u db).writeOne a = none)).map
      AttIdx.idxInMultiAttr = returned u (rewrittenInds d db) := by
    unfold returned
    rw [← restartWork_inds u db hn,List.filter_map]
    congr 1
    apply List.filter_congr
    intro b hb
    obtain ⟨m',v,hm',-,-⟩ := mem_restartWork hn hb
    rw [restartDev,writeOne_impl hm',Function.comp_apply]
    cases u.isAllowed b.idxInMultiAttr with
    | false => simp
    | true => cases u.writeError b.idxInMultiAttr <;> simp
  have hne : restartWork d u db ≠ [] := List.ne_nil_of_mem ha
  have hans : (answer (restartDev d u db) (restartWork d u db)).errors (restartDev d u db) a =
      hardwareFailure d u (rewrittenInds d db) m := by
    have hkey : (restartDev d u db).key a = lowerName m.name := by
      unfold DeviceImpl.key DeviceImpl.attName DeviceImpl.conf restartDev
      rw [impl_attr,hi]
      rfl
    have hidl : (restartDev d u db).idlVersion = d.idlVersion := rfl
    have hhw : (restartDev d u db).writeAttrHardware = u.writeAttrHardware := rfl
    unfold answer hardwareFailure
    by_cases hv : 4 ≤ d.idlVersion
    · simp only [hret,hidl,hhw,hv,hne,ne_eq,not_false_iff,and_self,if_true]
      cases u.writeAttrHardware (returned u (rewrittenInds d db)) with
      | done => rfl
      | devFailed e => rfl
      | multiDevFailed es => simp only [HardwareResult.errors,multiErrors,hkey]
    · simp only [hidl,hv,false_and,if_false]
      rfl
  unfold laterErrors writeFailure
  rw [hstore,hans,restartDev,writeOne_impl hi,Option.or_none]
  split <;> rfl

theorem names_each (hu : u.NamesAsked d) {es : List (String × DevErrorList)}
    (h : answer (restartDev d u db) (restartWork d u db) = .multiDevFailed es) :
    NamesEach (restartDev d u db) es
      ((restartWork d u db).filter (fun a => (restartDev d u db).writeOne a = none)) := by
  unfold answer at h
  split at h
  next =>
    obtain ⟨h1,h2⟩ := hu _ _ h
    refine ⟨h1,?_⟩
    intro n hmem
    obtain ⟨i,hi,m,hm,hl⟩ := h2 n hmem
    obtain ⟨a,ha,rfl⟩ := List.mem_map.mp hi
    refine ⟨a,ha,?_⟩
    unfold DeviceImpl.key DeviceImpl.attName DeviceImpl.conf restartDev
    rw [impl_attr,hm]
    exact hl
  next => cases h

variable (db) in
/-- The call at start-up returns, and reports and calls what each attribute asks for. -/
theorem restart_call (hn : d.Distinct) (hu : u.NamesAsked d) (wattrs : Nat → WAttribute Value) :
    ∃ out w, writeAttributes34 (restartDev d u db) wattrs (elements db d.attrs.zipIdx) = some out ∧
      (afterChecks (restartDev d u db) (restartWork d u db) w).map
        (fun r => memorize (restartDev d u db) r.1 (copyLoop r.1 r.2)) = some out ∧
      w.wattrs = updSlots AttIdx.idxInMultiAttr (checkedValue (restartDev d u db))
        (restartWork d u db) wattrs ∧
      ∀ a ∈ restartWork d u db, ∀ m, d.attrs[a.idxInMultiAttr]? = some m →
        out.reported a.idxInNames =
          (writeFailure d u (rewrittenInds d db) a.idxInMultiAttr m).toList ∧
        out.logged a.idxInNames =
          .checked a.idxInNames :: writeEvents (restartDev d u db) a := by
  have hnames := elements_names db hn
  have hc : checkLoop (restartDev d u db) [] (restartWork d u db)
      (begun (restartDev d u db) wattrs (elements db d.attrs.zipIdx)) = _ :=
    checkLoop_all (fun a ha => (restartWork_good hn ha).1) _
  rw [List.nil_append] at hc
  have hap : Apart (restartWork d u db) := apart_selected _ hnames
  have hkeys : ((restartWork d u db).map (restartDev d u db).key).Nodup :=
    selected_names_nodup _ hnames
  obtain ⟨r,hr⟩ := (afterChecks_returns hkeys _).mpr (fun es => names_each hu)
  have hout := congrArg (Option.map
    (fun r => memorize (restartDev d u db) r.1 (copyLoop r.1 r.2))) hr
  obtain ⟨l',hp⟩ := afterChecks_pass hap hkeys hout
  refine ⟨_,_,(writeAttributes34_eq hc).trans hout,hout,rfl,?_⟩
  intro a ha m hi
  have hlog : (((restartWork d u db).map (fun a => Event.checked a.idxInNames)).filter
      (fun e => e.about = a.idxInNames)) = [.checked a.idxInNames] := by
    rw [List.map_eq_flatMap]
    apply filter_flatMap_of_mem _ hap.places ha
    intro b e he
    rw [List.mem_singleton.mp he]
    rfl
  constructor
  · rw [hp.errors a ha,later_failure hn ha hi]
    unfold Work.reported
    rw [show (begun (restartDev d u db) wattrs (elements db d.attrs.zipIdx)).errs = [] from
      none_rejected u db hn]
    rfl
  · rw [hp.events a ha]
    unfold Work.logged
    rw [show (begun (restartDev d u db) wattrs (elements db d.attrs.zipIdx)).log = [] from rfl]
    rw [List.nil_append,hlog]
    rfl

end Failures

end CppTango.Device.Memorized
