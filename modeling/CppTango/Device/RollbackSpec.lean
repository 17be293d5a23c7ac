import CppTango.Device.Rollback
import CppTango.Lib.Memory
import Mathlib.Data.List.TakeWhile

namespace CppTango.Device.Rollback

open CppTango.Lib

variable {dev : DeviceImpl}

section Elements
variable {values : List AttributeValue}

theorem mem_selected {a : AttIdx dev} :
    a ∈ selected dev values ↔ values[a.idxInNames]? = some a.value ∧ select dev a.value = .ok a.idxInMultiAttr := by
  unfold selected
  rw [List.mem_filterMap]
  constructor
  · rintro ⟨⟨v,i⟩,hm,hs⟩
    have hv := List.mem_zipIdx_iff_getElem?.mp hm
    unfold selectedAt at hs
    dsimp only at hs hv
    split at hs
    next ind he =>
      cases hs
      exact ⟨hv,he⟩
    next => cases hs
  · rintro ⟨hv,hs⟩
    exact ⟨(a.value,a.idxInNames),List.mem_zipIdx_iff_getElem?.mpr hv,by simp [selectedAt,hs]⟩

/-- An element is known by its place. -/
theorem selected_unique {a b : AttIdx dev} (ha : a ∈ selected dev values) (hb : b ∈ selected dev values)
    (h : a.idxInNames = b.idxInNames) : a = b := by
  obtain ⟨hva,hsa⟩ := mem_selected.mp ha
  obtain ⟨hvb,hsb⟩ := mem_selected.mp hb
  rw [h,hvb] at hva
  have hv : b.value = a.value := Option.some.inj hva
  rw [hv,hsa] at hsb
  have hi : a.idxInMultiAttr = b.idxInMultiAttr := by simpa using hsb
  cases a
  cases b
  simp_all

theorem selected_rejected_length :
    (selected dev values).length + (rejected dev values).length = values.length := by
  have h : ∀ l : List (AttributeValue × Nat),
      (l.filterMap (selectedAt dev)).length + (l.filterMap (rejectedAt dev)).length = l.length := by
    intro l
    induction l with
    | nil => rfl
    | cons p l ih =>
      cases hs : select dev p.1 <;>
        simp only [List.filterMap_cons,selectedAt,rejectedAt,hs,List.length_cons] at ih ⊢ <;> omega
  simpa [selected,rejected] using h values.zipIdx

/-- The check of an element passes. -/
def AttIdx.passes (a : AttIdx dev) : Bool :=
  match checkWrittenValue a.conf a.value with
  | .passed _ => true
  | _ => false

/-- What its check changes. -/
def AttIdx.checkedValue (a : AttIdx dev) (w : WAttribute) : WAttribute :=
  match checkWrittenValue a.conf a.value with
  | .passed s => updateInternalSequence a.conf s a.value.dimX a.value.dimY w
  | _ => w

variable (dev values) in
/-- The elements of the call whose check passes. -/
def passed : List (AttIdx dev) := (selected dev values).filter AttIdx.passes

end Elements

section Checks
variable {front rest l : List (AttIdx dev)} {w v : Work dev}

theorem checkLoop_length (h : checkLoop front rest w = .ended l v) :
    v.errs.length + l.length = w.errs.length + front.length + rest.length := by
  induction rest generalizing front w with
  | nil =>
    cases h
    simp
  | cons a rest ih =>
    rw [checkLoop] at h
    cases hc : checkWrittenValue a.conf a.value with
    | outOfRange =>
      rw [hc] at h
      cases h
    | passed s =>
      rw [hc] at h
      have hl := ih h
      simp only [Work.upd,List.length_append,List.length_cons,List.length_nil] at hl ⊢
      omega
    | failed e =>
      simp only [hc] at h
      split at h
      next hf =>
        cases h
        simp only [hf,Work.fail,List.length_append,List.length_cons,List.length_nil]
        omega
      next =>
        have hl := ih h
        simp only [Work.fail,List.length_append,List.length_cons,List.length_nil] at hl ⊢
        omega

/-- Once a check has passed the loop goes through to the end. -/
theorem checkLoop_passed (h : checkLoop front rest w = .ended l v) (hw : w.checked = front.map AttIdx.idxInNames)
    (hv : v.checked ≠ []) :
    l = front ++ rest.filter AttIdx.passes ∧ v.checked = l.map AttIdx.idxInNames ∧
      v.wattrs = updSlots AttIdx.idxInMultiAttr AttIdx.checkedValue (rest.filter AttIdx.passes) w.wattrs ∧
      ∀ e ∈ v.errs, e ∈ w.errs ∨ ∃ b ∈ rest, b.passes = false ∧ e.indexInCall = b.idxInNames := by
  induction rest generalizing front w with
  | nil =>
    cases h
    exact ⟨by simp,hw,rfl,fun e he => .inl he⟩
  | cons a rest ih =>
    rw [checkLoop] at h
    cases hc : checkWrittenValue a.conf a.value with
    | outOfRange =>
      rw [hc] at h
      cases h
    | passed s =>
      rw [hc] at h
      have hp : a.passes = true := by
        rw [AttIdx.passes,hc]
      obtain ⟨hl,hcl,hwl,he⟩ := ih h (by simp [hw])
      rw [List.filter_cons_of_pos hp,updSlots_cons]
      refine ⟨by simp [hl],hcl,?_,fun e hm => ?_⟩
      · simp [hwl,Work.upd,AttIdx.checkedValue,hc]
      · rcases he e hm with h1 | ⟨b,hb,h1⟩
        · exact .inl h1
        · exact .inr ⟨b,List.mem_cons_of_mem _ hb,h1⟩
    | failed e =>
      simp only [hc] at h
      have hp : a.passes = false := by
        rw [AttIdx.passes,hc]
      split at h
      next hf =>
        cases h
        simp [Work.fail,hw,hf] at hv
      next =>
        obtain ⟨hl,hcl,hwl,he⟩ := ih h hw
        rw [List.filter_cons_of_neg (by simp [hp])]
        refine ⟨hl,hcl,hwl,fun e hm => ?_⟩
        rcases he e hm with h1 | ⟨b,hb,h1⟩
        · rcases List.mem_append.mp h1 with h1 | h1
          · exact .inl h1
          · rw [List.mem_singleton.mp h1]
            exact .inr ⟨a,List.mem_cons_self,hp,rfl⟩
        · exact .inr ⟨b,List.mem_cons_of_mem _ hb,h1⟩

end Checks

section Touches

/-- What happens to the value of an element after the checks. -/
inductive Touch (dev : DeviceImpl)
  | run (a : AttIdx dev)
  | undo (a : AttIdx dev)

def Touch.about : Touch dev → AttIdx dev
  | .run a | .undo a => a

def Touch.key (t : Touch dev) : Fin dev.attrs.length := t.about.idxInMultiAttr

/-- Rolling it back throws. -/
def AttIdx.unsupported (a : AttIdx dev) : Bool := a.conf.dataFormat = .scalar ∧ a.conf.dataType = .encoded

def Touch.throws : Touch dev → Bool
  | .run _ => false
  | .undo a => a.unsupported

def undone (att : AttrConf) (x : WAttribute) : WAttribute :=
  match undo att x with
  | .ok y => y
  | .error _ => x

def Touch.apply : Touch dev → WAttribute → WAttribute
  | .run a => written a
  | .undo a => undone a.conf

theorem undo_cases (a : AttIdx dev) (x : WAttribute) :
    (a.unsupported = true ∧ ∃ e, undo a.conf x = .error e) ∨
      a.unsupported = false ∧ undo a.conf x = .ok (undone a.conf x) := by
  unfold AttIdx.unsupported undone undo rollback
  by_cases hf : a.conf.dataFormat = .scalar
  · cases ht : a.conf.dataType <;> simp [hf]
  · simp [hf]

/-- The elements of `l` that the errors of a `MultiDevFailed` are for. -/
def foundAll : List (String × DevErrorList) → List (AttIdx dev) → List (AttIdx dev)
  | [],_ => []
  | (name,_)::es,l =>
    match l.find? (fun a => lowerName a.conf.name = lowerName name) with
    | none => []
    | some a => a :: foundAll es (l.eraseP fun a => lowerName a.conf.name = lowerName name)

/-- The elements that the answer of `write_attr_hardware` refuses. -/
def refusedBy (l : List (AttIdx dev)) : List (AttIdx dev) :=
  if 4 ≤ dev.idlVersion then
    match dev.writeAttrHardware (l.map fun a => a.idxInMultiAttr.val) with
    | .done => []
    | .devFailed _ => l
    | .multiDevFailed es => foundAll es l
  else []

def writeTouches (l : List (AttIdx dev)) : List (Touch dev) :=
  l.flatMap fun a => .run a :: if a.writeOne = none then [] else [.undo a]

def returned (l : List (AttIdx dev)) : List (AttIdx dev) := l.filter fun a => a.writeOne = none

def touches (l : List (AttIdx dev)) : List (Touch dev) :=
  writeTouches l ++ (refusedBy (returned l)).map .undo

def supported (ts : List (Touch dev)) : List (Touch dev) := ts.takeWhile fun t => !t.throws

/-- A part of the call goes through the touches `ts`, up to the first that throws. -/
def Goes (ts : List (Touch dev)) (w : Work dev) : Outcome dev → Prop
  | .outOfRange => True
  | .thrown _ v => (∃ t ∈ ts, t.throws = true) ∧ v.checked = w.checked ∧
      v.wattrs = updSlots Touch.key Touch.apply (supported ts) w.wattrs
  | .ended _ v => (∀ t ∈ ts, t.throws = false) ∧ v.checked = w.checked ∧
      v.wattrs = updSlots Touch.key Touch.apply ts w.wattrs

variable {ts ts' : List (Touch dev)} {w : Work dev}

theorem supported_of_clean (h : ∀ t ∈ ts, t.throws = false) : supported ts = ts := by
  apply List.takeWhile_eq_self_iff.mpr
  intro t ht
  simp [h t ht]

theorem supported_append_of_clean (h : ∀ t ∈ ts, t.throws = false) :
    supported (ts ++ ts') = ts ++ supported ts' := by
  apply List.takeWhile_append_of_pos
  intro t ht
  simp [h t ht]

theorem supported_append_of_throws (h : ∃ t ∈ ts, t.throws = true) : supported (ts ++ ts') = supported ts := by
  obtain ⟨t,ht,hs⟩ := h
  unfold supported
  rw [List.takeWhile_append,if_neg]
  intro hl
  have hall := List.takeWhile_eq_self_iff.mp ((List.takeWhile_prefix _).eq_of_length hl)
  have := hall t ht
  simp [hs] at this

theorem updSlots_append (ts ts' : List (Touch dev)) (g : Fin dev.attrs.length → WAttribute) :
    updSlots Touch.key Touch.apply (ts ++ ts') g =
      updSlots Touch.key Touch.apply ts' (updSlots Touch.key Touch.apply ts g) := by
  unfold updSlots
  rw [List.foldl_append]

/-- Nothing is touched. -/
theorem Goes.idle (l : List (AttIdx dev)) : Goes [] w (.ended l w) :=
  ⟨fun t ht => (by cases ht),rfl,rfl⟩

/-- One part of the call after another. -/
theorem Goes.trans {o : Outcome dev} (w' : Work dev) (hc : ∀ t ∈ ts, t.throws = false)
    (hk : w'.checked = w.checked) (hw : w'.wattrs = updSlots Touch.key Touch.apply ts w.wattrs)
    (h : Goes ts' w' o) : Goes (ts ++ ts') w o := by
  cases o with
  | outOfRange => trivial
  | thrown e v =>
    obtain ⟨⟨t,ht,hs⟩,hv,hu⟩ := h
    refine ⟨⟨t,List.mem_append_right _ ht,hs⟩,hv.trans hk,?_⟩
    rw [supported_append_of_clean hc,updSlots_append,hu,hw]
  | ended l v =>
    obtain ⟨hc',hv,hu⟩ := h
    refine ⟨fun t ht => ?_,hv.trans hk,by rw [updSlots_append,hu,hw]⟩
    rcases List.mem_append.mp ht with ht | ht
    · exact hc t ht
    · exact hc' t ht

theorem Goes.bind {o : Outcome dev} {f : List (AttIdx dev) → Work dev → Outcome dev} (h : Goes ts w o)
    (hf : ∀ l w', o = .ended l w' → Goes ts' w' (f l w')) : Goes (ts ++ ts') w (o.bind f) := by
  cases o with
  | outOfRange => trivial
  | thrown e v =>
    obtain ⟨⟨t,ht,hs⟩,hv,hu⟩ := h
    refine ⟨⟨t,List.mem_append_left _ ht,hs⟩,hv,?_⟩
    rw [supported_append_of_throws ⟨t,ht,hs⟩,hu]
  | ended l v =>
    obtain ⟨hc,hk,hw⟩ := h
    exact Goes.trans v hc hk hw (hf l v rfl)

theorem Goes.run {a : AttIdx dev} {o : Outcome dev} (h : Goes ts (w.upd a (written a)) o) :
    Goes (.run a :: ts) w o := by
  rw [← List.singleton_append]
  refine Goes.trans (w.upd a (written a)) ?_ rfl rfl h
  intro t ht
  rw [List.mem_singleton.mp ht]
  rfl

theorem Goes.refuse {a : AttIdx dev} {name : String} {i : Nat} {e : DevErrorList}
    {next : Work dev → Outcome dev} (h : ∀ w', Goes ts w' (next w')) :
    Goes (.undo a :: ts) w (refuse a name i e w next) := by
  unfold Rollback.refuse
  rcases undo_cases a (w.wattrs a.idxInMultiAttr) with ⟨hs,d,hd⟩ | ⟨hs,hd⟩
  · rw [hd]
    refine ⟨⟨.undo a,List.mem_cons_self,hs⟩,rfl,?_⟩
    rw [supported,List.takeWhile_cons_of_neg (by simp [Touch.throws,hs])]
    rfl
  · rw [hd,← List.singleton_append]
    refine Goes.trans ((w.upd a (fun _ => undone a.conf (w.wattrs a.idxInMultiAttr))).fail name i e) ?_
      rfl rfl (h _)
    intro t ht
    rw [List.mem_singleton.mp ht]
    exact hs

end Touches

section Loops
variable {l : List (AttIdx dev)}

theorem writeLoop_goes (l : List (AttIdx dev)) (w : Work dev) : Goes (writeTouches l) w (writeLoop l w) := by
  induction l generalizing w with
  | nil => exact Goes.idle []
  | cons a l ih =>
    rw [writeLoop,writeTouches,List.flatMap_cons,List.cons_append]
    apply Goes.run
    cases hone : a.writeOne with
    | none =>
      simp only [if_true,List.nil_append]
      rw [← List.append_nil (List.flatMap _ l)]
      exact (ih _).bind (fun l' w' _ => Goes.idle _)
    | some e =>
      simp only [reduceCtorEq,if_false,List.singleton_append]
      exact Goes.refuse ih

/-- The elements left are those whose method returns. -/
theorem writeLoop_ended {l' : List (AttIdx dev)} {w w' : Work dev} (h : writeLoop l w = .ended l' w') :
    l' = returned l := by
  induction l generalizing w l' with
  | nil =>
    cases h
    rfl
  | cons a l ih =>
    rw [writeLoop] at h
    cases hone : a.writeOne with
    | none =>
      simp only [hone] at h
      cases ho : writeLoop l (w.upd a (written a)) with
      | outOfRange =>
        rw [ho] at h
        cases h
      | thrown e v =>
        rw [ho] at h
        cases h
      | ended l1 v =>
        rw [ho] at h
        cases h
        rw [ih ho,returned,returned,List.filter_cons_of_pos (by simp [hone])]
    | some e =>
      simp only [hone,refuse] at h
      rw [returned,List.filter_cons_of_neg (by simp [hone])]
      split at h
      next => cases h
      next => exact ih h

theorem multiLoop_goes (es : List (String × DevErrorList)) (l : List (AttIdx dev)) (w : Work dev) :
    Goes ((foundAll es l).map .undo) w (multiLoop es l w) := by
  induction es generalizing l w with
  | nil => exact Goes.idle l
  | cons ne es ih =>
    obtain ⟨n,e⟩ := ne
    rw [multiLoop,foundAll]
    cases l.find? (fun a => lowerName a.conf.name = lowerName n) with
    | none => trivial
    | some a => exact Goes.refuse (ih _)

theorem failAll_goes (updated : List (AttIdx dev)) (e : DevErrorList) (l : List (AttIdx dev)) (w : Work dev) :
    Goes (l.map .undo) w (failAll updated e l w) := by
  induction l generalizing w with
  | nil => exact Goes.idle []
  | cons a l ih => exact Goes.refuse ih

theorem hardware_goes (l : List (AttIdx dev)) (w : Work dev) :
    Goes ((refusedBy l).map .undo) w (hardware l w) := by
  unfold hardware refusedBy
  split
  next =>
    cases dev.writeAttrHardware (l.map fun a => a.idxInMultiAttr.val) with
    | done => exact Goes.idle l
    | devFailed e => exact failAll_goes l e l w
    | multiDevFailed es => exact multiLoop_goes es l w
  next => exact Goes.idle l

theorem writes_goes (l : List (AttIdx dev)) (w : Work dev) :
    Goes (touches l) w ((writeLoop l w).bind hardware) := by
  apply (writeLoop_goes l w).bind
  intro l' w' h
  rw [writeLoop_ended h]
  exact hardware_goes _ w'

end Loops

section Alike

/-- Two ends of a call that differ at most in the values of the attributes. -/
def Outcome.Alike : Outcome dev → Outcome dev → Prop
  | .outOfRange,.outOfRange => True
  | .thrown _ v,.thrown _ v' => v.errs = v'.errs ∧ v.checked = v'.checked
  | .ended l v,.ended l' v' => l = l' ∧ v.errs = v'.errs ∧ v.checked = v'.checked
  | _,_ => False

variable {w w' : Work dev}

theorem Outcome.Alike.bind {o o' : Outcome dev} {f f' : List (AttIdx dev) → Work dev → Outcome dev}
    (h : o.Alike o') (hf : ∀ l v v', v.errs = v'.errs → v.checked = v'.checked → (f l v).Alike (f' l v')) :
    (o.bind f).Alike (o'.bind f') := by
  cases o <;> cases o' <;> try exact h.elim
  case outOfRange => trivial
  case thrown => exact h
  case ended =>
    obtain ⟨rfl,he,hc⟩ := h
    exact hf _ _ _ he hc

theorem refuse_alike {a : AttIdx dev} {name : String} {i : Nat} {e : DevErrorList}
    {next : Work dev → Outcome dev} (he : w.errs = w'.errs) (hc : w.checked = w'.checked)
    (h : ∀ v v', v.errs = v'.errs → v.checked = v'.checked → (next v).Alike (next v')) :
    (refuse a name i e w next).Alike (refuse a name i e w' next) := by
  unfold refuse
  rcases undo_cases a (w.wattrs a.idxInMultiAttr) with ⟨hs,d,hd⟩ | ⟨hs,hd⟩ <;>
    rcases undo_cases a (w'.wattrs a.idxInMultiAttr) with ⟨hs',d',hd'⟩ | ⟨hs',hd'⟩ <;>
    rw [hd,hd']
  · exact ⟨he,hc⟩
  · rw [hs] at hs'
    cases hs'
  · rw [hs] at hs'
    cases hs'
  · exact h _ _ (by simp [Work.fail,Work.upd,he]) hc

theorem checkLoop_alike (front rest : List (AttIdx dev)) (he : w.errs = w'.errs) (hc : w.checked = w'.checked) :
    (checkLoop front rest w).Alike (checkLoop front rest w') := by
  induction rest generalizing front w w' with
  | nil => exact ⟨rfl,he,hc⟩
  | cons a rest ih =>
    simp only [checkLoop]
    split
    next => trivial
    next s _ => exact ih _ he (by simp [hc])
    next e _ =>
      split
      next => exact ⟨rfl,by simp [Work.fail,he],hc⟩
      next => exact ih _ (by simp [Work.fail,he]) hc

theorem writeLoop_alike (l : List (AttIdx dev)) (he : w.errs = w'.errs) (hc : w.checked = w'.checked) :
    (writeLoop l w).Alike (writeLoop l w') := by
  induction l generalizing w w' with
  | nil => exact ⟨rfl,he,hc⟩
  | cons a l ih =>
    simp only [writeLoop]
    cases a.writeOne with
    | none => exact Outcome.Alike.bind (ih he hc) (fun l v v' he hc => ⟨rfl,he,hc⟩)
    | some e => exact refuse_alike he hc (fun v v' he hc => ih he hc)

theorem multiLoop_alike (es : List (String × DevErrorList)) (l : List (AttIdx dev)) (he : w.errs = w'.errs)
    (hc : w.checked = w'.checked) : (multiLoop es l w).Alike (multiLoop es l w') := by
  induction es generalizing l w w' with
  | nil => exact ⟨rfl,he,hc⟩
  | cons ne es ih =>
    obtain ⟨n,e⟩ := ne
    simp only [multiLoop]
    cases l.find? (fun a => lowerName a.conf.name = lowerName n) with
    | none => trivial
    | some a => exact refuse_alike he hc (fun v v' he hc => ih _ he hc)

theorem failAll_alike (updated : List (AttIdx dev)) (e : DevErrorList) (l : List (AttIdx dev))
    (he : w.errs = w'.errs) (hc : w.checked = w'.checked) :
    (failAll updated e l w).Alike (failAll updated e l w') := by
  induction l generalizing w w' with
  | nil => exact ⟨rfl,he,hc⟩
  | cons a l ih => exact refuse_alike he hc (fun v v' he hc => ih he hc)

theorem hardware_alike (l : List (AttIdx dev)) (he : w.errs = w'.errs) (hc : w.checked = w'.checked) :
    (hardware l w).Alike (hardware l w') := by
  unfold hardware
  split
  next =>
    cases dev.writeAttrHardware (l.map fun a => a.idxInMultiAttr.val) with
    | done => exact ⟨rfl,he,hc⟩
    | devFailed e => exact failAll_alike l e l he hc
    | multiDevFailed es => exact multiLoop_alike es l he hc
  next => exact ⟨rfl,he,hc⟩

theorem copyLoop_reports (l : List (AttIdx dev)) (w : Work dev) :
    (copyLoop l w).errs = w.errs ∧ (copyLoop l w).checked = w.checked := by
  induction l generalizing w with
  | nil => exact ⟨rfl,rfl⟩
  | cons a l ih => exact ih _

/-- What a call reports does not depend on the values the attributes have. -/
theorem writeAttributes34_alike (values : List AttributeValue) (g g' : Fin dev.attrs.length → WAttribute) :
    (writeAttributes34 dev g values).Alike (writeAttributes34 dev g' values) := by
  have h : (checkLoop [] (selected dev values) ⟨g,rejected dev values,[]⟩).Alike
      (checkLoop [] (selected dev values) ⟨g',rejected dev values,[]⟩) := checkLoop_alike _ _ rfl rfl
  unfold writeAttributes34
  apply h.bind
  intro l v v' he hc
  apply Outcome.Alike.bind
  · rw [he]
    split
    · exact Outcome.Alike.bind (writeLoop_alike l he hc) (fun l v v' he hc => hardware_alike l he hc)
    · exact ⟨rfl,he,hc⟩
  · intro l v v' he hc
    refine ⟨rfl,?_⟩
    rw [(copyLoop_reports l v).1,(copyLoop_reports l v').1,(copyLoop_reports l v).2,(copyLoop_reports l v').2]
    exact ⟨he,hc⟩

end Alike

end CppTango.Device.Rollback
