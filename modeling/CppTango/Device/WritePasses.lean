import CppTango.Device.Write
import CppTango.Lib.Keyed
import CppTango.Lib.Memory

namespace CppTango.Device.Write

open CppTango.Lib

variable {α : Type} {dev : DeviceImpl α}

section Select

theorem select_name {v : AttributeValue α} {ind : Nat} (h : select dev v = .ok ind) :
    ∃ att, dev.attrs[ind]? = some att ∧ lowerName att.name = lowerName v.name := by
  unfold select at h
  cases hg : getAttrIndByName dev.names v.name with
  | error e =>
    rw [hg] at h
    cases h
  | ok i =>
    obtain ⟨n,hn,hl⟩ := attr_ind_found hg
    rw [DeviceImpl.names,List.getElem?_map,Option.map_eq_some_iff] at hn
    obtain ⟨att,ha,rfl⟩ := hn
    rw [hg] at h
    simp only [ha] at h
    split at h
    · cases h
    · cases h
      exact ⟨att,ha,hl⟩

variable (dev) in
def selectedAt (p : AttributeValue α × Nat) : Option (AttIdx α) :=
  match select dev p.1 with
  | .ok ind => some ⟨p.2,ind,p.1⟩
  | .error _ => none

variable (dev) in
def rejectedAt (p : AttributeValue α × Nat) : Option NamedDevError :=
  match select dev p.1 with
  | .ok _ => none
  | .error e => some ⟨p.1.name,p.2,e⟩

theorem selectAll_eq (k : Nat) (vs : List (AttributeValue α)) :
    selectAll dev k vs =
      ((vs.zipIdx k).filterMap (selectedAt dev),(vs.zipIdx k).filterMap (rejectedAt dev)) := by
  induction vs generalizing k with
  | nil => rfl
  | cons v vs ih =>
    rw [selectAll,ih,List.zipIdx_cons,List.filterMap_cons,List.filterMap_cons]
    cases hs : select dev v with
    | ok ind => simp only [selectedAt,rejectedAt,hs]
    | error e => simp only [selectedAt,rejectedAt,hs]

theorem selectedAt_some {p : AttributeValue α × Nat} {a : AttIdx α} (h : selectedAt dev p = some a) :
    select dev p.1 = .ok a.idxInMultiAttr ∧ a.idxInNames = p.2 ∧ a.value = p.1 := by
  unfold selectedAt at h
  split at h
  · cases h
    exact ⟨‹_›,rfl,rfl⟩
  · cases h

variable (dev) in
/-- The elements that are an attribute that can be written, each on its own. -/
def selected (values : List (AttributeValue α)) : List (AttIdx α) :=
  (values.zipIdx 0).filterMap (selectedAt dev)

theorem selectAll_selected (values : List (AttributeValue α)) :
    (selectAll dev 0 values).1 = selected dev values := by
  rw [selectAll_eq]
  rfl

theorem mem_selected {values : List (AttributeValue α)} {a : AttIdx α} :
    a ∈ selected dev values ↔
      values[a.idxInNames]? = some a.value ∧ select dev a.value = .ok a.idxInMultiAttr := by
  rw [selected,List.mem_filterMap]
  constructor
  · rintro ⟨p,hp,h⟩
    obtain ⟨hs,hi,hv⟩ := selectedAt_some h
    rw [hi,hv]
    exact ⟨List.mem_zipIdx_iff_getElem?.mp hp,hs⟩
  · rintro ⟨hv,hs⟩
    refine ⟨(a.value,a.idxInNames),List.mem_zipIdx_iff_getElem?.mpr hv,?_⟩
    simp only [selectedAt,hs]

theorem selected_name {values : List (AttributeValue α)} {a : AttIdx α} (ha : a ∈ selected dev values) :
    lowerName (dev.attName a) = lowerName a.value.name := by
  obtain ⟨att,hc,hl⟩ := select_name (mem_selected.mp ha).2
  rw [DeviceImpl.attName,DeviceImpl.conf,hc]
  exact hl

variable (dev) in
theorem selected_idxInNames_nodup (values : List (AttributeValue α)) :
    ((selected dev values).map AttIdx.idxInNames).Nodup := by
  rw [selected,List.Nodup,List.pairwise_map,List.pairwise_filterMap]
  have h := List.nodup_range' (s := 0) (n := values.length)
  rw [← List.zipIdx_map_snd,List.Nodup,List.pairwise_map] at h
  apply h.imp
  intro p q hpq a ha b hb he
  rw [(selectedAt_some ha).2.1,(selectedAt_some hb).2.1] at he
  exact hpq he

variable (dev) in
theorem selected_names_nodup {values : List (AttributeValue α)}
    (hd : (values.map (fun v => lowerName v.name)).Nodup) :
    ((selected dev values).map (fun a => lowerName (dev.attName a))).Nodup := by
  rw [List.map_congr_left (fun a ha => selected_name ha),selected,List.Nodup,
    List.pairwise_map,List.pairwise_filterMap]
  rw [← List.zipIdx_map_fst 0 values,List.map_map,List.Nodup,List.pairwise_map] at hd
  apply hd.imp
  intro p q hpq a ha b hb he
  rw [(selectedAt_some ha).2.2,(selectedAt_some hb).2.2] at he
  exact hpq he

variable (dev) in
theorem selected_idxInMultiAttr_nodup {values : List (AttributeValue α)}
    (hd : (values.map (fun v => lowerName v.name)).Nodup) :
    ((selected dev values).map AttIdx.idxInMultiAttr).Nodup := by
  have h := selected_names_nodup dev hd
  rw [List.Nodup,List.pairwise_map] at h ⊢
  apply h.imp
  intro a b hab he
  apply hab
  rw [DeviceImpl.attName,DeviceImpl.attName,DeviceImpl.conf,DeviceImpl.conf,he]

variable (dev) in
theorem selectAll_length (k : Nat) (vs : List (AttributeValue α)) :
    (selectAll dev k vs).2.length + (selectAll dev k vs).1.length = vs.length := by
  induction vs generalizing k with
  | nil => rfl
  | cons v vs ih =>
    have h := ih (k + 1)
    rw [selectAll]
    split
    · simp only [List.length_cons]
      omega
    · simp only [List.length_cons]
      omega

end Select

section Pass

/-- The errors reported for one element of the call. -/
def Work.reported (w : Work α) (i : Nat) : List DevErrorList :=
  (w.errs.filter (fun e => e.indexInCall = i)).map NamedDevError.errList

def Work.logged (w : Work α) (i : Nat) : List Event := w.log.filter (fun e => e.about = i)

/-- What each element of a list may rely on: it has its own place and its own attribute. -/
structure Apart (l : List (AttIdx α)) : Prop where
  places : (l.map AttIdx.idxInNames).Nodup
  attrs : (l.map AttIdx.idxInMultiAttr).Nodup

theorem Apart.filter {l : List (AttIdx α)} (h : Apart l) (p : AttIdx α → Bool) : Apart (l.filter p) :=
  ⟨h.places.sublist (List.filter_sublist.map _),h.attrs.sublist (List.filter_sublist.map _)⟩

/-- One loop over the elements still to be written: `g` is the error it has for one of them,
`u` what it does to the value of those that go on, `ev` what it adds to the log. -/
structure Pass (g : AttIdx α → Option DevErrorList) (u : AttIdx α → WAttribute α → WAttribute α)
    (ev : AttIdx α → List Event) (l : List (AttIdx α)) (w : Work α) (l' : List (AttIdx α))
    (w' : Work α) : Prop where
  left : l' = l.filter (fun a => g a = none)
  errors : ∀ a ∈ l, w'.reported a.idxInNames = w.reported a.idxInNames ++ (g a).toList
  events : ∀ a ∈ l, w'.logged a.idxInNames = w.logged a.idxInNames ++ ev a
  others : ∀ i ∉ l.map AttIdx.idxInNames, w'.reported i = w.reported i ∧ w'.logged i = w.logged i
  values : ∀ a ∈ l', w'.wattrs a.idxInMultiAttr = u a (w.wattrs a.idxInMultiAttr)

def named (name : AttIdx α → String) (g : AttIdx α → Option DevErrorList) (a : AttIdx α) :
    Option NamedDevError :=
  (g a).map (fun e => ⟨name a,a.idxInNames,e⟩)

theorem named_place {name : AttIdx α → String} {g : AttIdx α → Option DevErrorList} (a : AttIdx α) :
    ∀ e ∈ (named name g a).toList, e.indexInCall = a.idxInNames := by
  intro e he
  obtain ⟨x,-,rfl⟩ := Option.map_eq_some_iff.mp (Option.mem_toList.mp he)
  rfl

theorem named_errList (name : AttIdx α → String) (g : AttIdx α → Option DevErrorList) (a : AttIdx α) :
    (named name g a).toList.map NamedDevError.errList = (g a).toList := by
  unfold named
  cases g a <;> rfl

variable {g : AttIdx α → Option DevErrorList} {u u' : AttIdx α → WAttribute α → WAttribute α}
variable {ev : AttIdx α → List Event} {l l' : List (AttIdx α)} {w w' : Work α}

theorem Pass.idle : Pass (fun _ => none) (fun _ x => x) (fun _ => []) l w l w :=
  ⟨by simp,by simp,by simp,fun _ _ => ⟨rfl,rfl⟩,fun _ _ => rfl⟩

/-- Two passes in a row are a pass: the second sees only what the first let go on. -/
theorem Pass.trans {g' : AttIdx α → Option DevErrorList} {ev' : AttIdx α → List Event}
    {l'' : List (AttIdx α)} {w'' : Work α} (hl : Apart l) (h : Pass g u ev l w l' w')
    (h' : Pass g' u' ev' l' w' l'' w'') :
    Pass (fun a => (g a).or (g' a)) (fun a x => u' a (u a x))
      (fun a => ev a ++ if g a = none then ev' a else []) l w l'' w'' := by
  have hmem : ∀ a ∈ l, g a = none → a ∈ l' := by
    intro a ha hg
    rw [h.left,List.mem_filter]
    exact ⟨ha,by simpa using hg⟩
  have hout : ∀ a ∈ l, ∀ e, g a = some e → a.idxInNames ∉ l'.map AttIdx.idxInNames := by
    intro a ha e hg hm
    obtain ⟨b,hb,hbi⟩ := List.mem_map.mp hm
    rw [h.left,List.mem_filter] at hb
    rw [List.inj_on_of_nodup_map hl.places hb.1 ha hbi] at hb
    simp [hg] at hb
  refine ⟨?_,?_,?_,?_,?_⟩
  · rw [h'.left,h.left,List.filter_filter]
    apply List.filter_congr
    intro a _
    rw [Bool.eq_iff_iff]
    simp only [Bool.and_eq_true,decide_eq_true_eq,Option.or_eq_none_iff]
    exact and_comm
  · intro a ha
    cases hg : g a with
    | none =>
      rw [h'.errors a (hmem a ha hg),h.errors a ha,hg]
      simp
    | some e =>
      rw [(h'.others _ (hout a ha e hg)).1,h.errors a ha,hg]
      rfl
  · intro a ha
    cases hg : g a with
    | none =>
      rw [h'.events a (hmem a ha hg),h.events a ha,if_pos rfl,List.append_assoc]
    | some e =>
      rw [(h'.others _ (hout a ha e hg)).2,h.events a ha,if_neg nofun,List.append_nil]
  · intro i hi
    have hi' : i ∉ l'.map AttIdx.idxInNames := by
      rw [h.left]
      exact fun hm => hi ((List.filter_sublist.map _).subset hm)
    rw [(h'.others i hi').1,(h'.others i hi').2]
    exact h.others i hi
  · intro a ha
    have ha' : a ∈ l' := by
      rw [h'.left] at ha
      exact (List.mem_filter.mp ha).1
    rw [h'.values a ha,h.values a ha']

/-- A loop that goes through the list in order is such a pass. -/
theorem Pass.of_loop (name : AttIdx α → String) (hl : Apart l)
    (hleft : l' = l.filter (fun a => g a = none))
    (herrs : w'.errs = w.errs ++ l.filterMap (named name g))
    (hlog : w'.log = w.log ++ l.flatMap ev) (hev : ∀ a, ∀ e ∈ ev a, e.about = a.idxInNames)
    (hw : w'.wattrs = updSlots AttIdx.idxInMultiAttr u' l w.wattrs)
    (hu : ∀ a, g a = none → u' a = u a) : Pass g u ev l w l' w' := by
  rw [List.filterMap_eq_flatMap_toList] at herrs
  refine ⟨hleft,?_,?_,?_,?_⟩
  · intro a ha
    rw [Work.reported,Work.reported,herrs,List.filter_append,List.map_append,
      filter_flatMap_of_mem named_place hl.places ha,named_errList]
  · intro a ha
    rw [Work.logged,Work.logged,hlog,List.filter_append,filter_flatMap_of_mem hev hl.places ha]
  · intro i hi
    rw [Work.reported,Work.reported,Work.logged,Work.logged,herrs,hlog,List.filter_append,
      List.filter_append,filter_flatMap_of_not_mem named_place hi,filter_flatMap_of_not_mem hev hi,
      List.append_nil,List.append_nil]
    exact ⟨rfl,rfl⟩
  · intro a ha
    rw [hleft,List.mem_filter] at ha
    rw [hw,updSlots_of_mem hl.attrs ha.1,hu a (by simpa using ha.2)]

end Pass

section Loops
variable (dev)

def checkErrors (a : AttIdx α) : Option DevErrorList :=
  match dev.check a with
  | .failed e => some e
  | _ => none

def checkedValue (a : AttIdx α) (x : WAttribute α) : WAttribute α :=
  match dev.check a with
  | .passed => setValue (dev.isScalar a) a.value.seq x
  | _ => x

def checkEvents (a : AttIdx α) : List Event :=
  match dev.check a with
  | .passed => [.checked a.idxInNames]
  | _ => []

variable {dev}

/-- The loop goes through the whole list when the first element passes. -/
theorem checkLoop_eq (front rest : List (AttIdx α)) (w : Work α)
    (hr : ∀ a ∈ rest, dev.check a ≠ .outOfRange)
    (hf : front ≠ [] ∨ ∀ a r, rest = a :: r → dev.check a = .passed) :
    checkLoop dev front rest w = some (front ++ rest.filter (fun a => checkErrors dev a = none),
      ⟨updSlots AttIdx.idxInMultiAttr (checkedValue dev) rest w.wattrs,
        w.errs ++ rest.filterMap (named (fun a => a.value.name) (checkErrors dev)),
        w.log ++ rest.flatMap (checkEvents dev)⟩) := by
  induction rest generalizing front w with
  | nil => simp [checkLoop,updSlots]
  | cons a rest ih =>
    have hrest := fun b hb => hr b (List.mem_cons_of_mem _ hb)
    rw [checkLoop]
    cases hc : dev.check a with
    | outOfRange => exact absurd hc (hr a List.mem_cons_self)
    | passed =>
      have hn : checkErrors dev a = none := by rw [checkErrors,hc]
      have hv : checkedValue dev a = setValue (dev.isScalar a) a.value.seq := by
        funext x
        rw [checkedValue,hc]
      have he : checkEvents dev a = [.checked a.idxInNames] := by rw [checkEvents,hc]
      simp only []
      rw [ih _ _ hrest (.inl (by simp)),updSlots_cons,List.flatMap_cons,
        List.filter_cons_of_pos (by simpa using hn),List.filterMap_cons_none (by rw [named,hn]; rfl),
        he,hv]
      simp [Work.note,Work.upd]
    | failed e =>
      have hfront : front ≠ [] := by
        rcases hf with hf | hf
        · exact hf
        · rw [hf a rest rfl] at hc
          cases hc
      have hn : checkErrors dev a = some e := by rw [checkErrors,hc]
      have hv : checkedValue dev a = id := by
        funext x
        rw [checkedValue,hc]
        rfl
      have he : checkEvents dev a = [] := by rw [checkEvents,hc]
      simp only [if_neg hfront]
      rw [ih _ _ hrest (.inl hfront),updSlots_cons,List.flatMap_cons,
        List.filter_cons_of_neg (by simp [hn]),
        List.filterMap_cons_some (b := ⟨a.value.name,a.idxInNames,e⟩) (by rw [named,hn]; rfl),he,hv]
      simp [Work.fail]

variable (dev) in
def writtenValue (a : AttIdx α) (x : WAttribute α) : WAttribute α :=
  match dev.writeOne a with
  | none => written dev a { x with userSetWriteValue := false }
  | some _ => rollback (dev.isScalar a) { x with userSetWriteValue := false }

variable (dev) in
def writeEvents (a : AttIdx α) : List Event :=
  if dev.isAllowed a.idxInMultiAttr then [.written a.idxInNames] else []

theorem writeLoop_eq (l : List (AttIdx α)) (w : Work α) :
    writeLoop dev l w = (l.filter (fun a => dev.writeOne a = none),
      ⟨updSlots AttIdx.idxInMultiAttr (writtenValue dev) l w.wattrs,
        w.errs ++ l.filterMap (named (fun a => a.value.name) dev.writeOne),
        w.log ++ l.flatMap (writeEvents dev)⟩) := by
  induction l generalizing w with
  | nil => simp [writeLoop,updSlots]
  | cons a l ih =>
    have hlog : ∀ v : Work α, (if dev.isAllowed a.idxInMultiAttr then
        v.note (.written a.idxInNames) else v) = ⟨v.wattrs,v.errs,v.log ++ writeEvents dev a⟩ := by
      intro v
      rw [writeEvents]
      split
      · rfl
      · rw [List.append_nil]
    rw [writeLoop]
    simp only [hlog]
    cases ho : dev.writeOne a with
    | none =>
      have hv : ∀ x, writtenValue dev a x = written dev a { x with userSetWriteValue := false } := by
        intro x
        rw [writtenValue,ho]
      simp only []
      rw [ih,updSlots_cons,List.flatMap_cons,List.filter_cons_of_pos (by simpa using ho),
        List.filterMap_cons_none (by rw [named,ho]; rfl),hv]
      simp [Work.upd]
    | some e =>
      have hv : ∀ x, writtenValue dev a x =
          rollback (dev.isScalar a) { x with userSetWriteValue := false } := by
        intro x
        rw [writtenValue,ho]
      simp only []
      rw [ih,updSlots_cons,List.flatMap_cons,List.filter_cons_of_neg (by simp [ho]),
        List.filterMap_cons_some (b := ⟨a.value.name,a.idxInNames,e⟩) (by rw [named,ho]; rfl),hv]
      simp [Work.upd,Work.fail]

theorem failAll_eq (e : DevErrorList) (l : List (AttIdx α)) (w : Work α) :
    failAll dev e l w =
      ⟨updSlots AttIdx.idxInMultiAttr (fun a => rollback (dev.isScalar a)) l w.wattrs,
        w.errs ++ l.filterMap (named dev.attName (fun _ => some e)),w.log⟩ := by
  induction l generalizing w with
  | nil => simp [failAll,updSlots]
  | cons a l ih =>
    rw [failAll,ih,updSlots_cons]
    simp [Work.upd,Work.fail,named]

theorem copyLoop_eq (l : List (AttIdx α)) (w : Work α) :
    copyLoop l w = { w with wattrs := updSlots AttIdx.idxInMultiAttr copyData l w.wattrs } := by
  induction l generalizing w with
  | nil => rfl
  | cons a l ih =>
    rw [copyLoop,ih,updSlots_cons]
    rfl

variable (dev) in
/-- The error of the database for the elements `l` that were written. -/
def storeErrors (l : List (AttIdx α)) (a : AttIdx α) : Option DevErrorList :=
  if dev.useDb ∧ dev.isMemorized a then
    dev.writeAttributesInDb ((l.filter dev.isMemorized).map AttIdx.idxInMultiAttr)
  else none

theorem memorize_eq (l : List (AttIdx α)) (w : Work α) :
    memorize dev l w =
      { w with errs := w.errs ++ l.filterMap (named (fun a => a.value.name) (storeErrors dev l)) } := by
  have hnone : (∀ a ∈ l, storeErrors dev l a = none) →
      l.filterMap (named (fun a => a.value.name) (storeErrors dev l)) = [] := by
    intro h
    apply List.filterMap_eq_nil_iff.mpr
    intro a ha
    rw [named,h a ha]
    rfl
  unfold memorize
  simp only []
  split
  next hdb =>
    split
    next hr =>
      rw [hnone,List.append_nil]
      intro a _
      rw [storeErrors,hr,ite_self]
    next e hr =>
      have hs : named (fun a => a.value.name) (storeErrors dev l) = fun a =>
          if dev.isMemorized a then some (⟨a.value.name,a.idxInNames,e⟩ : NamedDevError) else none := by
        funext a
        rw [named,storeErrors,hr]
        simp only [hdb.1,true_and]
        split <;> rfl
      rw [hs,← List.filterMap_eq_map,List.filterMap_filter]
      simp
  next hdb =>
    rw [hnone,List.append_nil]
    intro a ha
    rw [storeErrors,if_neg]
    intro hm
    apply hdb
    exact ⟨hm.1,List.ne_nil_of_mem (List.mem_filter.mpr ⟨ha,hm.2⟩)⟩

end Loops

section Passes
variable {l l' : List (AttIdx α)} {w w' : Work α}

variable (dev) in
theorem writeLoop_pass (hl : Apart l) (w : Work α) :
    Pass dev.writeOne (fun a x => written dev a { x with userSetWriteValue := false }) (writeEvents dev)
      l w (writeLoop dev l w).1 (writeLoop dev l w).2 := by
  rw [writeLoop_eq]
  refine Pass.of_loop _ hl rfl rfl rfl ?_ rfl ?_
  · intro a e he
    unfold writeEvents at he
    split at he
    · rw [List.mem_singleton.mp he]
      rfl
    · cases he
  · intro a ha
    funext x
    rw [writtenValue,ha]

theorem copyLoop_pass (hl : Apart l) (w : Work α) :
    Pass (fun _ => none) copyData (fun _ => []) l w l (copyLoop l w) := by
  rw [copyLoop_eq]
  refine Pass.of_loop (fun a => a.value.name) hl ?_ ?_ ?_ (fun a e he => (by cases he)) rfl
    (fun _ _ => rfl)
  · simp
  · simp [named]
  · simp

variable (dev) in
theorem memorize_pass (hl : Apart l) (w : Work α) :
    Pass (storeErrors dev l) (fun _ x => x) (fun _ => []) l w
      (l.filter (fun a => storeErrors dev l a = none)) (memorize dev l w) := by
  rw [memorize_eq]
  refine Pass.of_loop _ hl rfl rfl ?_ (fun a e he => (by cases he)) updSlots_id.symm (fun _ _ => rfl)
  simp

theorem failAll_pass (hl : Apart l) (e : DevErrorList) (w : Work α) :
    Pass (fun _ => some e) (fun _ x => x) (fun _ => []) l w [] (failAll dev e l w) := by
  rw [failAll_eq]
  refine Pass.of_loop _ hl ?_ rfl ?_ (fun a e he => (by cases he)) rfl (fun _ h => (by cases h))
  · simp
  · simp

end Passes

section Multi
variable (dev)

def DeviceImpl.key (a : AttIdx α) : List Char := lowerName (dev.attName a)

def multiErrors (es : List (String × DevErrorList)) (a : AttIdx α) : Option DevErrorList :=
  (es.find? (fun n => lowerName n.1 = dev.key a)).map Prod.snd

/-- A `MultiDevFailed` names elements of the list, each once. -/
structure NamesEach (es : List (String × DevErrorList)) (l : List (AttIdx α)) : Prop where
  once : (es.map (fun n => lowerName n.1)).Nodup
  here : ∀ n ∈ es, ∃ a ∈ l, dev.key a = lowerName n.1

variable {dev} {es : List (String × DevErrorList)} {l l' : List (AttIdx α)} {w w' : Work α}

theorem multiErrors_cons (n : String) (e : DevErrorList) (es : List (String × DevErrorList))
    (a : AttIdx α) : multiErrors dev ((n,e) :: es) a =
      if dev.key a = lowerName n then some e else multiErrors dev es a := by
  unfold multiErrors
  by_cases h : lowerName n = dev.key a
  · rw [List.find?_cons_of_pos (by simpa using h),if_pos h.symm]
    rfl
  · rw [List.find?_cons_of_neg (by simpa using h),if_neg (fun he => h he.symm)]

theorem names_each_cons {n : String} {e : DevErrorList} {a : AttIdx α} (ha : a ∈ l)
    (hk : dev.key a = lowerName n) :
    NamesEach dev ((n,e) :: es) l ↔ NamesEach dev es (without dev.key (lowerName n) l) := by
  constructor
  · intro h
    obtain ⟨hn,ho⟩ := List.nodup_cons.mp h.once
    refine ⟨ho,fun m hm => ?_⟩
    obtain ⟨b,hb,hbm⟩ := h.here m (List.mem_cons_of_mem _ hm)
    refine ⟨b,mem_without.mpr ⟨hb,fun he => hn ?_⟩,hbm⟩
    exact List.mem_map.mpr ⟨m,hm,hbm.symm.trans he⟩
  · intro h
    refine ⟨List.nodup_cons.mpr ⟨fun hn => ?_,h.once⟩,fun m hm => ?_⟩
    · obtain ⟨m,hm,he⟩ := List.mem_map.mp hn
      obtain ⟨b,hb,hbm⟩ := h.here m hm
      exact (mem_without.mp hb).2 (hbm.trans he)
    · rcases List.mem_cons.mp hm with rfl | hm
      · exact ⟨a,ha,hk⟩
      · obtain ⟨b,hb,hbm⟩ := h.here m hm
        exact ⟨b,(mem_without.mp hb).1,hbm⟩

theorem multiLoop_cons (hn : (l.map dev.key).Nodup) {n : String} {a : AttIdx α} (ha : a ∈ l)
    (hk : dev.key a = lowerName n) (e : DevErrorList) (w : Work α) :
    multiLoop dev ((n,e) :: es) l w = multiLoop dev es (without dev.key (lowerName n) l)
      ((w.upd a.idxInMultiAttr (rollback (dev.isScalar a))).fail n a.idxInNames e) := by
  have hf : l.find? (fun b => dev.key b = lowerName n) = some a := by
    cases h : l.find? (fun b => dev.key b = lowerName n) with
    | none => exact absurd hk (by simpa using List.find?_eq_none.mp h a ha)
    | some b =>
      have hb : dev.key b = lowerName n := by simpa using List.find?_some h
      rw [List.inj_on_of_nodup_map hn (List.mem_of_find?_eq_some h) ha (hb.trans hk.symm)]
  have he := eraseP_eq_without hn (lowerName n)
  unfold DeviceImpl.key at hf he
  rw [multiLoop]
  simp only [hf,he]
  rfl

theorem multiLoop_returns (hn : (l.map dev.key).Nodup) (w : Work α) :
    (∃ r, multiLoop dev es l w = some r) ↔ NamesEach dev es l := by
  induction es generalizing l w with
  | nil => exact ⟨fun _ => ⟨List.nodup_nil,fun n h => (by cases h)⟩,fun _ => ⟨(l,w),rfl⟩⟩
  | cons ne es ih =>
    obtain ⟨n,e⟩ := ne
    by_cases h : ∃ a ∈ l, dev.key a = lowerName n
    · obtain ⟨a,ha,hk⟩ := h
      rw [multiLoop_cons hn ha hk,names_each_cons ha hk]
      exact ih (nodup_without _ hn) _
    · have hf : l.find? (fun b => lowerName (dev.attName b) = lowerName n) = none := by
        apply List.find?_eq_none.mpr
        intro a ha hk
        exact h ⟨a,ha,by simpa [DeviceImpl.key] using hk⟩
      rw [multiLoop]
      simp only [hf]
      constructor
      · rintro ⟨r,hr⟩
        cases hr
      · intro hne
        exact absurd (hne.here (n,e) List.mem_cons_self) h

theorem reported_fail (w : Work α) (n : String) (i : Nat) (e : DevErrorList) :
    (w.fail n i e).reported i = w.reported i ++ [e] := by
  simp [Work.reported,Work.fail]

theorem reported_fail_of_ne {i j : Nat} (h : i ≠ j) (w : Work α) (n : String) (e : DevErrorList) :
    (w.fail n i e).reported j = w.reported j := by
  simp [Work.reported,Work.fail,h]

theorem multiLoop_pass (hl : Apart l) (hn : (l.map dev.key).Nodup)
    (h : multiLoop dev es l w = some (l',w')) :
    Pass (multiErrors dev es) (fun _ x => x) (fun _ => []) l w l' w' := by
  induction es generalizing l w with
  | nil =>
    cases h
    exact Pass.idle
  | cons ne es ih =>
    obtain ⟨n,e⟩ := ne
    obtain ⟨a,ha,hk⟩ := ((multiLoop_returns hn w).mp ⟨_,h⟩).here (n,e) List.mem_cons_self
    rw [multiLoop_cons hn ha hk] at h
    have hp := ih (hl.filter _) (nodup_without _ hn) h
    have hplace : a.idxInNames ∉ (without dev.key (lowerName n) l).map AttIdx.idxInNames := by
      intro hm
      obtain ⟨b,hb,hbi⟩ := List.mem_map.mp hm
      obtain ⟨hbl,hbn⟩ := mem_without.mp hb
      rw [List.inj_on_of_nodup_map hl.places hbl ha hbi] at hbn
      exact hbn hk
    have hne : ∀ b ∈ l, dev.key b ≠ lowerName n →
        a.idxInNames ≠ b.idxInNames ∧ b.idxInMultiAttr ≠ a.idxInMultiAttr := by
      intro b hb hbn
      constructor
      · intro he
        rw [List.inj_on_of_nodup_map hl.places ha hb he] at hk
        exact hbn hk
      · intro he
        rw [List.inj_on_of_nodup_map hl.attrs hb ha he] at hbn
        exact hbn hk
    refine ⟨?_,?_,?_,?_,?_⟩
    · rw [hp.left,List.filter_filter]
      apply List.filter_congr
      intro b _
      rw [multiErrors_cons]
      by_cases hb : dev.key b = lowerName n
      · simp [hb]
      · simp [hb]
    · intro b hb
      rw [multiErrors_cons]
      by_cases hbn : dev.key b = lowerName n
      · have hba : b = a := List.inj_on_of_nodup_map hn hb ha (hbn.trans hk.symm)
        subst b
        rw [(hp.others _ hplace).1,reported_fail,if_pos hbn]
        rfl
      · rw [hp.errors b (mem_without.mpr ⟨hb,hbn⟩),reported_fail_of_ne (hne b hb hbn).1,if_neg hbn]
        rfl
    · intro b hb
      by_cases hbn : dev.key b = lowerName n
      · have hba : b = a := List.inj_on_of_nodup_map hn hb ha (hbn.trans hk.symm)
        subst b
        rw [(hp.others _ hplace).2,List.append_nil]
        rfl
      · rw [hp.events b (mem_without.mpr ⟨hb,hbn⟩)]
        rfl
    · intro i hi
      have hia : a.idxInNames ≠ i := fun he => hi (he ▸ List.mem_map_of_mem ha)
      have hiw : i ∉ (without dev.key (lowerName n) l).map AttIdx.idxInNames :=
        fun hm => hi ((List.filter_sublist.map _).subset hm)
      rw [(hp.others i hiw).1,(hp.others i hiw).2,reported_fail_of_ne hia]
      exact ⟨rfl,rfl⟩
    · intro b hb
      have hbw : b ∈ without dev.key (lowerName n) l := by
        rw [hp.left] at hb
        exact (List.mem_filter.mp hb).1
      obtain ⟨hbl,hbn⟩ := mem_without.mp hbw
      rw [hp.values b hb]
      exact Function.update_of_ne (hne b hbl hbn).2 _ _

/-- `write_attr_hardware`, whatever it answers. -/
def HardwareResult.errors (dev : DeviceImpl α) : HardwareResult → AttIdx α → Option DevErrorList
  | .done,_ => none
  | .devFailed e,_ => some e
  | .multiDevFailed es,a => multiErrors dev es a

theorem hardware_pass (hl : Apart l) (hn : (l.map dev.key).Nodup) (hv : 4 ≤ dev.idlVersion)
    (h : hardware dev l w = some (l',w')) :
    Pass ((dev.writeAttrHardware (l.map AttIdx.idxInMultiAttr)).errors dev) (fun _ x => x) (fun _ => [])
      l w l' w' := by
  rw [hardware,if_pos hv] at h
  cases hr : dev.writeAttrHardware (l.map AttIdx.idxInMultiAttr) with
  | done =>
    rw [hr] at h
    cases h
    exact Pass.idle
  | devFailed e =>
    rw [hr] at h
    cases h
    exact failAll_pass hl e w
  | multiDevFailed es =>
    rw [hr] at h
    exact multiLoop_pass hl hn h

end Multi

end CppTango.Device.Write
