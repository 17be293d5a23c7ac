import CppTango.Device.RollbackSpec

namespace CppTango.Device.Rollback

open CppTango.Lib
open Write (lengthWrong toUnsigned)

/-- The values an attribute has after writes that succeeded, under the limits it had then. -/
inductive Reached (att : AttrConf) : WAttribute → Prop
  | new : Reached att (newWAttribute att)
  | written {w : WAttribute} (s : Seq) (x y : Int) (byUser : Bool) : Reached att w →
      s.kind = att.dataType.kind → ¬ lengthWrong s.elts.length (toUnsigned x) (toUnsigned y) →
      (att.dataFormat = .scalar → s.elts ≠ []) →
      Reached att { copyData att s (updateInternalSequence att s x y w) with userSetWriteValue := byUser }

variable {dev : DeviceImpl}

/-- The attribute is checked by the call and reported as failed. An exception is reported for
the whole call. -/
def Outcome.Refused (ind : Fin dev.attrs.length) (values : List AttributeValue) : Outcome dev → Prop
  | .outOfRange => False
  | .thrown _ w => ∃ a ∈ selected dev values, a.idxInMultiAttr = ind ∧ a.idxInNames ∈ w.checked
  | .ended _ w => ∃ a ∈ selected dev values, a.idxInMultiAttr = ind ∧ a.idxInNames ∈ w.checked ∧
      ∃ e ∈ w.errs, e.indexInCall = a.idxInNames

/-- The set value of an attribute, and what a read sends of it, are as before. -/
structure SameSetValue (att : AttrConf) (before after : WAttribute) : Prop where
  writeValue : after.writeValue = before.writeValue
  wDimX : after.wDimX = before.wDimX
  wDimY : after.wDimY = before.wDimY
  read : setRvalue att after = setRvalue att before

instance (ind : Fin dev.attrs.length) (values : List AttributeValue) :
    (o : Outcome dev) → Decidable (o.Refused ind values)
  | .outOfRange => inferInstanceAs (Decidable False)
  | .thrown _ w => inferInstanceAs (Decidable (∃ a ∈ selected dev values, a.idxInMultiAttr = ind ∧
      a.idxInNames ∈ w.checked))
  | .ended _ w => inferInstanceAs (Decidable (∃ a ∈ selected dev values, a.idxInMultiAttr = ind ∧
      a.idxInNames ∈ w.checked ∧ ∃ e ∈ w.errs, e.indexInCall = a.idxInNames))

def Outcome.Keeps (ind : Fin dev.attrs.length) (before : WAttribute) : Outcome dev → Prop
  | .outOfRange => True
  | .thrown _ w => SameSetValue (dev.attrs.get ind) before (w.wattrs ind)
  | .ended _ w => SameSetValue (dev.attrs.get ind) before (w.wattrs ind)

/-- From every state reached by successful writes, the attribute keeps its set value when it is
checked but reported as failed. -/
def KeepsSetValue (dev : DeviceImpl) (values : List AttributeValue) (ind : Fin dev.attrs.length) : Prop :=
  ∀ wattrs : Fin dev.attrs.length → WAttribute, (∀ i, Reached (dev.attrs.get i) (wattrs i)) →
    (writeAttributes34 dev wattrs values).Refused ind values →
    (writeAttributes34 dev wattrs values).Keeps ind (wattrs ind)

section Condition
variable (dev) (values : List AttributeValue)

/-- The elements whose errors are handled after the checks, in this order, -/
def refusals : List (AttIdx dev) :=
  ((passed dev values).filter fun a => a.writeOne ≠ none) ++ refusedBy (returned (passed dev values))

/-- and those before the first scalar of type `DevEncoded`. -/
def rolledBack : List (AttIdx dev) := (refusals dev values).takeWhile fun a => !a.unsupported

/-- The attribute is a scalar, not of bytes, given once in the call, whose write method sets no
value itself and whose error is handled before that of any scalar of type `DevEncoded`. -/
def Undone (ind : Fin dev.attrs.length) : Prop :=
  (dev.attrs.get ind).dataFormat = .scalar ∧ (dev.attrs.get ind).dataType ≠ .uchar ∧
    ∃ a, (passed dev values).filter (fun b => b.idxInMultiAttr = ind) = [a] ∧ a.sets = [] ∧
      a ∈ rolledBack dev values

end Condition

section Changes
variable {att : AttrConf} {x y : WAttribute}

def SameSet (x y : WAttribute) : Prop :=
  x.writeValue = y.writeValue ∧ x.wDimX = y.wDimX ∧ x.wDimY = y.wDimY

def SameCell (x y : WAttribute) : Prop := SameSet x y ∧ x.oldValue = y.oldValue

theorem update_sameSet (s : Seq) (a b : Int) (x y : WAttribute) :
    SameSet (updateInternalSequence att s a b x) (updateInternalSequence att s a b y) := by
  unfold updateInternalSequence
  split <;> exact ⟨rfl,rfl,rfl⟩

theorem update_sameCell (s : Seq) (a b : Int) (h : SameCell x y) :
    SameCell (updateInternalSequence att s a b x) (updateInternalSequence att s a b y) := by
  obtain ⟨⟨hw,hx,hy⟩,ho⟩ := h
  refine ⟨update_sameSet s a b x y,?_⟩
  unfold updateInternalSequence
  split
  · exact hw
  · exact ho

/-- A scalar that is set keeps its value, so the one before does not matter any more. -/
theorem update_sameCell_of_set (hf : att.dataFormat = .scalar) (s : Seq) (a b : Int) (h : SameSet x y) :
    SameCell (updateInternalSequence att s a b x) (updateInternalSequence att s a b y) := by
  refine ⟨update_sameSet s a b x y,?_⟩
  rw [updateInternalSequence,updateInternalSequence,if_pos hf,if_pos hf]
  exact h.1

theorem setWriteValue_eq (u : UserSet) (x : WAttribute) (ht : att.dataType ≠ .encoded) :
    ∃ c b, setWriteValue att x u = { updateInternalSequence att u.seq u.x u.y x with
      lastWrittenValue := c, userSetWriteValue := b } := by
  exact ⟨u.seq,true,by simp [setWriteValue,copyData,ht]⟩

theorem setWriteValue_sameSet (u : UserSet) (h : SameSet x y) :
    SameSet (setWriteValue att x u) (setWriteValue att y u) := by
  by_cases ht : att.dataType = .encoded
  · rw [setWriteValue,setWriteValue,if_pos ht,if_pos ht]
    exact h
  · obtain ⟨c,b,hx⟩ := setWriteValue_eq u x ht
    obtain ⟨d,e,hy⟩ := setWriteValue_eq u y ht
    rw [hx,hy]
    exact update_sameSet u.seq u.x u.y x y

theorem setWriteValue_sameCell (u : UserSet) (h : SameCell x y) :
    SameCell (setWriteValue att x u) (setWriteValue att y u) := by
  by_cases ht : att.dataType = .encoded
  · rw [setWriteValue,setWriteValue,if_pos ht,if_pos ht]
    exact h
  · obtain ⟨c,b,hx⟩ := setWriteValue_eq u x ht
    obtain ⟨d,e,hy⟩ := setWriteValue_eq u y ht
    rw [hx,hy]
    exact update_sameCell u.seq u.x u.y h

theorem setWriteValue_sameCell_of_set (hf : att.dataFormat = .scalar) (ht : att.dataType ≠ .encoded)
    (u : UserSet) (h : SameSet x y) : SameCell (setWriteValue att x u) (setWriteValue att y u) := by
  obtain ⟨c,b,hx⟩ := setWriteValue_eq u x ht
  obtain ⟨d,e,hy⟩ := setWriteValue_eq u y ht
  rw [hx,hy]
  exact update_sameCell_of_set hf u.seq u.x u.y h

variable {a : AttIdx dev}

theorem written_sameSet (h : SameSet x y) : SameSet (written a x) (written a y) :=
  List.foldl_rel h (fun u _ _ _ h => setWriteValue_sameSet u h)

theorem written_sameCell (h : SameCell x y) : SameCell (written a x) (written a y) :=
  List.foldl_rel h (fun u _ _ _ h => setWriteValue_sameCell u h)

theorem written_sameCell_of_set (hf : a.conf.dataFormat = .scalar) (ht : a.conf.dataType ≠ .encoded)
    (hs : a.sets ≠ []) (h : SameSet x y) : SameCell (written a x) (written a y) := by
  unfold written
  obtain ⟨u,us,hu⟩ := List.exists_cons_of_ne_nil hs
  rw [hu,List.foldl_cons,List.foldl_cons]
  exact List.foldl_rel (setWriteValue_sameCell_of_set hf ht u h)
    (fun u _ _ _ h => setWriteValue_sameCell u h)

theorem written_of_no_sets (hs : a.sets = []) (x : WAttribute) :
    written a x = { x with userSetWriteValue := false } := by
  rw [written,hs]
  rfl

/-- A value that a roll back leaves alone. -/
theorem undone_of_kept (h : att.dataFormat ≠ .scalar ∨ att.dataType = .uchar ∨ att.dataType = .encoded)
    (x : WAttribute) : undone att x = x := by
  unfold undone undo rollback
  rcases h with h | h | h
  · simp [h]
  · by_cases hf : att.dataFormat = .scalar <;> simp [hf,h]
  · by_cases hf : att.dataFormat = .scalar <;> simp [hf,h]

theorem undone_of_restored (hf : att.dataFormat = .scalar) (hu : att.dataType ≠ .uchar)
    (he : att.dataType ≠ .encoded) (x : WAttribute) :
    undone att x = { x with writeValue := x.oldValue } := by
  unfold undone undo rollback
  rw [if_pos hf]
  cases ht : att.dataType <;> simp_all

theorem undone_sameCell (h : SameCell x y) : SameCell (undone att x) (undone att y) := by
  by_cases hk : att.dataFormat ≠ .scalar ∨ att.dataType = .uchar ∨ att.dataType = .encoded
  · rw [undone_of_kept hk,undone_of_kept hk]
    exact h
  · simp only [not_or,not_not] at hk
    rw [undone_of_restored hk.1 hk.2.1 hk.2.2,undone_of_restored hk.1 hk.2.1 hk.2.2]
    exact ⟨⟨h.2,h.1.2⟩,h.2⟩

theorem checkedValue_eq (hp : a.passes = true) : ∃ s, ∀ x, a.checkedValue x =
    updateInternalSequence a.conf s a.value.dimX a.value.dimY x := by
  unfold AttIdx.passes at hp
  cases hc : checkWrittenValue a.conf a.value with
  | passed s => exact ⟨s,fun x => by rw [AttIdx.checkedValue,hc]⟩
  | failed e =>
    rw [hc] at hp
    cases hp
  | outOfRange =>
    rw [hc] at hp
    cases hp

theorem checkedValue_sameSet (hp : a.passes = true) (x y : WAttribute) :
    SameSet (a.checkedValue x) (a.checkedValue y) := by
  obtain ⟨s,hs⟩ := checkedValue_eq hp
  rw [hs,hs]
  exact update_sameSet s _ _ x y

theorem checkedValue_sameCell (hp : a.passes = true) (h : SameCell x y) :
    SameCell (a.checkedValue x) (a.checkedValue y) := by
  obtain ⟨s,hs⟩ := checkedValue_eq hp
  rw [hs,hs]
  exact update_sameCell s _ _ h

theorem checkedValue_sameCell_of_set (hp : a.passes = true) (hf : a.conf.dataFormat = .scalar)
    (h : SameSet x y) : SameCell (a.checkedValue x) (a.checkedValue y) := by
  obtain ⟨s,hs⟩ := checkedValue_eq hp
  rw [hs,hs]
  exact update_sameCell_of_set hf s _ _ h

end Changes

section Order
variable {l : List (AttIdx dev)} {a : AttIdx dev} {ind : Fin dev.attrs.length}

def Touch.undone? : Touch dev → Option (AttIdx dev)
  | .undo a => some a
  | .run _ => none

theorem undo_mem_supported {ts : List (Touch dev)} :
    .undo a ∈ supported ts ↔ a ∈ (ts.filterMap Touch.undone?).takeWhile fun a => !a.unsupported := by
  induction ts with
  | nil => simp [supported]
  | cons t ts ih =>
    unfold supported at ih ⊢
    cases t with
    | run b =>
      rw [List.takeWhile_cons_of_pos (by rfl),List.filterMap_cons_none rfl,← ih]
      simp
    | undo b =>
      have hcons : (Touch.undo b :: ts).filterMap Touch.undone? = b :: ts.filterMap Touch.undone? := rfl
      rw [hcons]
      cases hb : b.unsupported with
      | true => simp [Touch.throws,hb]
      | false =>
        rw [List.takeWhile_cons_of_pos (by simp [Touch.throws,hb]),
          List.takeWhile_cons_of_pos (by simp [hb]),List.mem_cons,List.mem_cons,ih]
        simp

theorem undone_touches (l : List (AttIdx dev)) : (touches l).filterMap Touch.undone? =
    (l.filter fun a => a.writeOne ≠ none) ++ refusedBy (returned l) := by
  have hmap : ∀ m : List (AttIdx dev), (m.map Touch.undo).filterMap Touch.undone? = m := by
    intro m
    rw [List.filterMap_map]
    exact List.filterMap_some
  have hw : ∀ m : List (AttIdx dev), (writeTouches m).filterMap Touch.undone? =
      m.filter fun a => a.writeOne ≠ none := by
    intro m
    induction m with
    | nil => rfl
    | cons b m ih =>
      rw [writeTouches,List.flatMap_cons,List.filterMap_append,← writeTouches,ih]
      cases hb : b.writeOne <;> simp [List.filterMap_cons,Touch.undone?,hb]
  rw [touches,List.filterMap_append,hmap,hw]

theorem rolledBack_iff {values : List AttributeValue} :
    a ∈ rolledBack dev values ↔ .undo a ∈ supported (touches (passed dev values)) := by
  rw [undo_mem_supported,undone_touches]
  rfl

theorem foundAll_subset (es : List (String × DevErrorList)) (l : List (AttIdx dev)) :
    ∀ a ∈ foundAll es l, a ∈ l := by
  induction es generalizing l with
  | nil => exact fun a ha => (by cases ha)
  | cons ne es ih =>
    obtain ⟨n,e⟩ := ne
    rw [foundAll]
    cases hf : l.find? (fun a => lowerName a.conf.name = lowerName n) with
    | none => exact fun a ha => (by cases ha)
    | some b =>
      intro a ha
      rcases List.mem_cons.mp ha with rfl | ha
      · exact List.mem_of_find?_eq_some hf
      · exact List.mem_of_mem_eraseP (ih _ a ha)

theorem refusedBy_subset (l : List (AttIdx dev)) : ∀ a ∈ refusedBy l, a ∈ l := by
  unfold refusedBy
  split
  next =>
    cases dev.writeAttrHardware (l.map fun a => a.idxInMultiAttr.val) with
    | done => exact fun a ha => (by cases ha)
    | devFailed e => exact fun a ha => ha
    | multiDevFailed es => exact foundAll_subset es l
  next => exact fun a ha => (by cases ha)

theorem touches_about {t : Touch dev} (h : t ∈ touches l) : t.about ∈ l := by
  rcases List.mem_append.mp h with h | h
  · obtain ⟨b,hb,ht⟩ := List.mem_flatMap.mp h
    rcases List.mem_cons.mp ht with rfl | ht
    · exact hb
    · split at ht
      · cases ht
      · rw [List.mem_singleton.mp ht]
        exact hb
  · obtain ⟨b,hb,rfl⟩ := List.mem_map.mp h
    exact (List.mem_filter.mp (refusedBy_subset _ b hb)).1

theorem writeTouches_filter (l : List (AttIdx dev)) :
    (writeTouches l).filter (fun t => t.key = ind) = writeTouches (l.filter fun a => a.idxInMultiAttr = ind) := by
  induction l with
  | nil => rfl
  | cons b l ih =>
    have hcons : writeTouches (b :: l) =
        (.run b :: if b.writeOne = none then [] else [.undo b]) ++ writeTouches l := rfl
    rw [hcons,List.filter_append,ih]
    by_cases h : b.idxInMultiAttr = ind
    · rw [List.filter_cons_of_pos (p := fun a : AttIdx dev => a.idxInMultiAttr = ind) (by simpa using h)]
      cases hb : b.writeOne <;> simp [writeTouches,Touch.key,Touch.about,h,hb]
    · rw [List.filter_cons_of_neg (p := fun a : AttIdx dev => a.idxInMultiAttr = ind) (by simpa using h)]
      cases hb : b.writeOne <;> simp [Touch.key,Touch.about,h]

/-- What happens to the value of one attribute after the checks. -/
def touchesOf (ind : Fin dev.attrs.length) (l : List (AttIdx dev)) : List (Touch dev) :=
  (supported (touches l)).filter fun t => t.key = ind

theorem touchesOf_about {t : Touch dev} (h : t ∈ touchesOf ind l) :
    t.about ∈ l.filter fun a => a.idxInMultiAttr = ind := by
  obtain ⟨hm,hk⟩ := List.mem_filter.mp h
  exact List.mem_filter.mpr ⟨touches_about ((List.takeWhile_prefix _).subset hm),hk⟩

theorem touchesOf_conf {t : Touch dev} (h : t ∈ touchesOf ind l) : t.about.conf = dev.attrs.get ind := by
  have hk : t.about.idxInMultiAttr = ind := of_decide_eq_true (List.mem_filter.mp h).2
  rw [AttIdx.conf,← hk]
  rfl

/-- The method of an attribute given once runs before anything else. -/
theorem touchesOf_once (h : (l.filter fun a => a.idxInMultiAttr = ind) = [a]) :
    touchesOf ind l = [] ∨ ∃ ts, touchesOf ind l = .run a :: ts := by
  have hp : touchesOf ind l <+: (touches l).filter fun t => t.key = ind :=
    (List.takeWhile_prefix _).filter _
  have ht : ∃ ts, ((touches l).filter fun t => t.key = ind) = .run a :: ts := by
    rw [touches,List.filter_append,writeTouches_filter,h]
    exact ⟨_,rfl⟩
  obtain ⟨ts,ht⟩ := ht
  rw [ht] at hp
  rcases List.prefix_cons_iff.mp hp with h | ⟨ts',h,-⟩
  · exact .inl h
  · exact .inr ⟨ts',h⟩

end Order

section Run
variable {values : List AttributeValue} {g : Fin dev.attrs.length → WAttribute} {ind : Fin dev.attrs.length}

theorem checkLoop_no_throw {front rest : List (AttIdx dev)} {w v : Work dev} {e : DevErrorList} :
    checkLoop front rest w ≠ .thrown e v := by
  induction rest generalizing front w with
  | nil => exact fun h => (by cases h)
  | cons a rest ih =>
    rw [checkLoop]
    split
    next => exact fun h => (by cases h)
    next => exact ih
    next =>
      split
      next => exact fun h => (by cases h)
      next => exact ih

theorem copied_sameSet (a : AttIdx dev) (x : WAttribute) : SameSet (copied a x) x := by
  unfold copied copyData
  split
  · split
    · exact ⟨rfl,rfl,rfl⟩
    · split <;> exact ⟨rfl,rfl,rfl⟩
  · exact ⟨rfl,rfl,rfl⟩

theorem SameSet.trans {x y z : WAttribute} (h : SameSet x y) (h' : SameSet y z) : SameSet x z :=
  ⟨h.1.trans h'.1,h.2.1.trans h'.2.1,h.2.2.trans h'.2.2⟩

theorem copyLoop_sameSet (l : List (AttIdx dev)) (w : Work dev) (ind : Fin dev.attrs.length) :
    SameSet ((copyLoop l w).wattrs ind) (w.wattrs ind) := by
  induction l generalizing w with
  | nil => exact ⟨rfl,rfl,rfl⟩
  | cons a l ih =>
    refine (ih _).trans ?_
    by_cases h : ind = a.idxInMultiAttr
    · subst h
      simp only [Work.upd,Function.update_self]
      exact copied_sameSet a _
    · simp only [Work.upd,Function.update_of_ne h]
      exact ⟨rfl,rfl,rfl⟩

/-- The value of an attribute after the checks and all that follows them. -/
def finalValue (ind : Fin dev.attrs.length) (l : List (AttIdx dev)) (x : WAttribute) : WAttribute :=
  (touchesOf ind l).foldl (fun x t => t.apply x)
    ((l.filter fun a => a.idxInMultiAttr = ind).foldl (fun x a => a.checkedValue x) x)

theorem finalValue_eq (l : List (AttIdx dev)) : updSlots Touch.key Touch.apply (supported (touches l))
    (updSlots AttIdx.idxInMultiAttr AttIdx.checkedValue l g) ind = finalValue ind l (g ind) := by
  rw [updSlots_apply,updSlots_apply]
  rfl

/-- Where a call that reports an attribute as failed leaves its value. -/
structure Left (values : List AttributeValue) (ind : Fin dev.attrs.length) (x : WAttribute) (v : Work dev) :
    Prop where
  given : (passed dev values).filter (fun a => a.idxInMultiAttr = ind) ≠ []
  value : SameSet (v.wattrs ind) (finalValue ind (passed dev values) x)

theorem left_of_checked {l : List (AttIdx dev)} {v : Work dev} {a : AttIdx dev}
    (h : checkLoop [] (selected dev values) ⟨g,rejected dev values,[]⟩ = .ended l v)
    (ha : a ∈ selected dev values) (hi : a.idxInMultiAttr = ind) (hc : a.idxInNames ∈ v.checked) :
    l = passed dev values ∧ a ∈ l ∧
      v.wattrs = updSlots AttIdx.idxInMultiAttr AttIdx.checkedValue (passed dev values) g ∧
      (passed dev values).filter (fun a => a.idxInMultiAttr = ind) ≠ [] := by
  obtain ⟨hl,hk,hw,-⟩ := checkLoop_passed h rfl (List.ne_nil_of_mem hc)
  have hl' : l = passed dev values := by rw [hl,List.nil_append]; rfl
  rw [hk] at hc
  obtain ⟨b,hb,hab⟩ := List.mem_map.mp hc
  rw [hl'] at hb
  have heq : b = a := selected_unique (List.mem_filter.mp hb).1 ha hab
  subst heq
  refine ⟨hl',hl' ▸ hb,hw,?_⟩
  apply List.ne_nil_of_mem (a := b)
  exact List.mem_filter.mpr ⟨hb,by simpa using hi⟩

theorem writeAttributes34_checked {l : List (AttIdx dev)} {v : Work dev}
    (h : checkLoop [] (selected dev values) ⟨g,rejected dev values,[]⟩ = .ended l v) :
    writeAttributes34 dev g values =
      (if v.errs.length ≠ values.length then (writeLoop l v).bind hardware else .ended l v).bind
        fun updated w => .ended updated (copyLoop updated w) := by
  unfold writeAttributes34
  rw [h]
  rfl

theorem refused_left (h : (writeAttributes34 dev g values).Refused ind values) :
    (∃ e v, writeAttributes34 dev g values = .thrown e v ∧ Left values ind (g ind) v) ∨
      ∃ l v, writeAttributes34 dev g values = .ended l v ∧ Left values ind (g ind) v := by
  cases hc : checkLoop [] (selected dev values) ⟨g,rejected dev values,[]⟩ with
  | outOfRange =>
    rw [writeAttributes34,hc] at h
    exact h.elim
  | thrown e v => exact absurd hc checkLoop_no_throw
  | ended l v =>
    rw [writeAttributes34_checked hc] at h ⊢
    by_cases hlen : v.errs.length = values.length
    · -- every element has an error, so none can have passed
      rw [if_neg (not_not.mpr hlen)] at h
      obtain ⟨a,ha,hi,hk,-⟩ := h
      rw [(copyLoop_reports l v).2] at hk
      obtain ⟨-,hal,-⟩ := left_of_checked hc ha hi hk
      have h1 := checkLoop_length hc
      have h2 : (selected dev values).length + (rejected dev values).length = values.length :=
        selected_rejected_length
      have h3 := List.length_pos_of_mem hal
      simp only [List.length_nil] at h1
      omega
    · rw [if_pos hlen] at h ⊢
      have hg := writes_goes l v
      cases ho : (writeLoop l v).bind hardware with
      | outOfRange =>
        rw [ho] at h
        exact h.elim
      | thrown e u =>
        rw [ho] at h hg
        obtain ⟨a,ha,hi,hk⟩ := h
        obtain ⟨-,hcu,hu⟩ := hg
        rw [hcu] at hk
        obtain ⟨hl,-,hw,hne⟩ := left_of_checked hc ha hi hk
        refine .inl ⟨e,u,rfl,hne,?_⟩
        rw [hu,hw,hl,finalValue_eq]
        exact ⟨rfl,rfl,rfl⟩
      | ended l' u =>
        rw [ho] at h hg
        obtain ⟨a,ha,hi,hk,-⟩ := h
        obtain ⟨hclean,hcu,hu⟩ := hg
        rw [(copyLoop_reports l' u).2,hcu] at hk
        obtain ⟨hl,-,hw,hne⟩ := left_of_checked hc ha hi hk
        refine .inr ⟨l',_,rfl,hne,(copyLoop_sameSet l' u ind).trans ?_⟩
        rw [hu,hw,← supported_of_clean hclean,hl,finalValue_eq]
        exact ⟨rfl,rfl,rfl⟩

end Run

section Verdict
variable {values : List AttributeValue} {ind : Fin dev.attrs.length}

theorem passes_of_mem {a : AttIdx dev}
    (h : a ∈ (passed dev values).filter fun a => a.idxInMultiAttr = ind) :
    a.passes = true ∧ a.conf = dev.attrs.get ind := by
  obtain ⟨hm,hk⟩ := List.mem_filter.mp h
  have hi : a.idxInMultiAttr = ind := of_decide_eq_true hk
  exact ⟨(List.mem_filter.mp hm).2,by rw [AttIdx.conf,← hi]; rfl⟩

def Quiet (t : Touch dev) : Prop := ∀ y, t.apply y = { y with userSetWriteValue := false }

def Restores (t : Touch dev) : Prop := ∀ y, t.apply y = { y with writeValue := y.oldValue }

/-- A scalar that still keeps the value `c`. -/
structure Old (c : Seq) (y : WAttribute) : Prop where
  oldValue : y.oldValue = c
  wDimX : y.wDimX = 1
  wDimY : y.wDimY = 0

theorem foldl_restores {ts : List (Touch dev)} (h : ∀ t ∈ ts, Quiet t ∨ Restores t) {c : Seq} {y : WAttribute}
    (hy : Old c y) (hr : y.writeValue = c ∨ ∃ t ∈ ts, Restores t) :
    Old c (ts.foldl (fun x t => t.apply x) y) ∧ (ts.foldl (fun x t => t.apply x) y).writeValue = c := by
  induction ts generalizing y with
  | nil =>
    rcases hr with hr | ⟨t,ht,-⟩
    · exact ⟨hy,hr⟩
    · cases ht
  | cons t ts ih =>
    rw [List.foldl_cons]
    have ih' := @ih (fun t' ht => h t' (List.mem_cons_of_mem _ ht)) (t.apply y)
    by_cases ht : Restores t
    · rw [ht y] at ih' ⊢
      exact ih' ⟨hy.oldValue,hy.wDimX,hy.wDimY⟩ (.inl hy.oldValue)
    · have hq := (h t List.mem_cons_self).resolve_right ht
      rw [hq y] at ih' ⊢
      apply ih' ⟨hy.oldValue,hy.wDimX,hy.wDimY⟩
      rcases hr with hr | ⟨t',ht',hr⟩
      · exact .inl hr
      · rcases List.mem_cons.mp ht' with rfl | hm
        · exact absurd hr ht
        · exact .inr ⟨t',hm,hr⟩

/-- The value of an attribute that is undone comes back. -/
theorem finalValue_undone (h : Undone dev values ind) {x : WAttribute} (hx : x.wDimX = 1 ∧ x.wDimY = 0) :
    SameSet (finalValue ind (passed dev values) x) x := by
  obtain ⟨hf,hu,a,ha,hs,hr⟩ := h
  have hmem : a ∈ (passed dev values).filter fun a => a.idxInMultiAttr = ind := by
    rw [ha]
    exact List.mem_singleton_self a
  obtain ⟨hp,hconf⟩ := passes_of_mem hmem
  have he : dev.attrs[ind].dataType ≠ .encoded := by
    have h1 : a.unsupported = false := by simpa using List.mem_takeWhile_imp hr
    rw [AttIdx.unsupported,hconf,hf] at h1
    simpa using h1
  have hundo : Restores (.undo a) := by
    intro y
    change undone a.conf y = _
    rw [hconf]
    exact undone_of_restored hf hu he y
  have hall : ∀ t ∈ touchesOf ind (passed dev values), Quiet t ∨ Restores t := by
    intro t ht
    have habout := touchesOf_about ht
    rw [ha,List.mem_singleton] at habout
    cases t with
    | run b =>
      cases habout
      exact .inl (written_of_no_sets hs)
    | undo b =>
      cases habout
      exact .inr hundo
  have hin : Touch.undo a ∈ touchesOf ind (passed dev values) :=
    List.mem_filter.mpr ⟨rolledBack_iff.mp hr,(List.mem_filter.mp hmem).2⟩
  obtain ⟨s,hcheck⟩ := checkedValue_eq hp
  have hstart : Old x.writeValue (a.checkedValue x) := by
    rw [hcheck,hconf,updateInternalSequence,if_pos hf]
    exact ⟨rfl,rfl,rfl⟩
  obtain ⟨hold,hw⟩ := foldl_restores hall hstart (.inr ⟨_,hin,hundo⟩)
  rw [finalValue,ha]
  exact ⟨hw,hold.wDimX.trans hx.1.symm,hold.wDimY.trans hx.2.symm⟩

/-- The value before the call does not matter for an attribute that is not undone. -/
theorem finalValue_settled (hne : (passed dev values).filter (fun a => a.idxInMultiAttr = ind) ≠ [])
    (h : ¬ Undone dev values ind) (x y : WAttribute) :
    SameSet (finalValue ind (passed dev values) x) (finalValue ind (passed dev values) y) := by
  obtain ⟨a,l,hl⟩ := List.exists_cons_of_ne_nil hne
  have hpass : ∀ b ∈ a :: l, b.passes = true ∧ b.conf = dev.attrs[ind] := by
    intro b hb
    rw [← hl] at hb
    exact passes_of_mem hb
  obtain ⟨hp,hconf⟩ := hpass a List.mem_cons_self
  have hrest : ∀ b ∈ l, b.passes = true ∧ b.conf = dev.attrs[ind] :=
    fun b hb => hpass b (List.mem_cons_of_mem _ hb)
  have hset : SameSet (l.foldl (fun x a => a.checkedValue x) (a.checkedValue x))
      (l.foldl (fun x a => a.checkedValue x) (a.checkedValue y)) :=
    List.foldl_rel (checkedValue_sameSet hp x y) (fun b hb _ _ _ => checkedValue_sameSet (hrest b hb).1 _ _)
  rw [finalValue,finalValue,hl,List.foldl_cons,List.foldl_cons]
  by_cases hk : dev.attrs[ind].dataFormat ≠ .scalar ∨ dev.attrs[ind].dataType = .uchar ∨
      dev.attrs[ind].dataType = .encoded
  · -- nothing is restored
    refine List.foldl_rel hset (fun t ht x y hxy => ?_)
    cases t with
    | run b => exact written_sameSet hxy
    | undo b =>
      have hb : b.conf = dev.attrs[ind] := touchesOf_conf ht
      change SameSet (undone b.conf x) (undone b.conf y)
      rw [hb,undone_of_kept hk,undone_of_kept hk]
      exact hxy
  · simp only [not_or,not_not] at hk
    obtain ⟨hf,hu,he⟩ := hk
    have hcell : ∀ (ts : List (Touch dev)) (x y : WAttribute), SameCell x y →
        SameSet (ts.foldl (fun x t => t.apply x) x) (ts.foldl (fun x t => t.apply x) y) := by
      intro ts x y hxy
      refine (List.foldl_rel hxy (fun t _ x y hxy => ?_) : SameCell _ _).1
      cases t with
      | run b => exact written_sameCell hxy
      | undo b => exact undone_sameCell hxy
    cases l with
    | cons b l =>
      -- the value kept is one of the call
      obtain ⟨hpb,hcb⟩ := hrest b List.mem_cons_self
      have hfb : b.conf.dataFormat = .scalar := by rw [hcb]; exact hf
      apply hcell
      rw [List.foldl_cons,List.foldl_cons]
      refine List.foldl_rel (checkedValue_sameCell_of_set hpb hfb (checkedValue_sameSet hp x y)) ?_
      exact fun c hc x y hxy => checkedValue_sameCell (hrest c (List.mem_cons_of_mem _ hc)).1 hxy
    | nil =>
      by_cases hs : a.sets = []
      · -- the value is not rolled back
        refine List.foldl_rel hset (fun t ht x y hxy => ?_)
        cases t with
        | run b => exact written_sameSet hxy
        | undo b =>
          exfalso
          have habout := touchesOf_about ht
          rw [hl,List.mem_singleton] at habout
          cases habout
          exact h ⟨hf,hu,_,hl,hs,rolledBack_iff.mpr (List.mem_filter.mp ht).1⟩
      · rcases touchesOf_once hl with ht | ⟨ts,ht⟩
        · rw [ht]
          exact hset
        · -- the method sets the value over the one of the call
          rw [ht,List.foldl_cons,List.foldl_cons]
          apply hcell
          exact written_sameCell_of_set (by rw [hconf]; exact hf) (by rw [hconf]; exact he) hs hset

end Verdict

section Reachable
variable {att : AttrConf} {w : WAttribute}

theorem Reached.dims (h : Reached att w) (hf : att.dataFormat = .scalar) : w.wDimX = 1 ∧ w.wDimY = 0 := by
  cases h with
  | new => exact ⟨rfl,rfl⟩
  | written s x y b _ _ _ _ =>
    unfold copyData updateInternalSequence
    rw [if_pos hf]
    split <;> exact ⟨rfl,rfl⟩

/-- Every type has two values. -/
theorem two_elts : (k : SeqKind) → ∃ e e' : Elt k, e ≠ e'
  | .boolean => ⟨true,false,by decide⟩
  | .short => ⟨(0 : Int16),(1 : Int16),by decide⟩
  | .long => ⟨(0 : Int32),(1 : Int32),by decide⟩
  | .long64 => ⟨(0 : Int64),(1 : Int64),by decide⟩
  | .float => ⟨(0 : BitVec 32),(1 : BitVec 32),by decide⟩
  | .double => ⟨(0 : BitVec 64),(1 : BitVec 64),by decide⟩
  | .uchar => ⟨(0 : UInt8),(1 : UInt8),by decide⟩
  | .ushort => ⟨(0 : UInt16),(1 : UInt16),by decide⟩
  | .ulong => ⟨(0 : UInt32),(1 : UInt32),by decide⟩
  | .ulong64 => ⟨(0 : UInt64),(1 : UInt64),by decide⟩
  | .string => ⟨"","a",by decide⟩
  | .state => ⟨DevState.on,DevState.off,by decide⟩
  | .encoded => ⟨(⟨"",[]⟩ : DevEncoded),(⟨"a",[]⟩ : DevEncoded),by decide⟩

/-- A write of one value leaves it as the set value. -/
theorem reached_one (att : AttrConf) (e : Elt att.dataType.kind) : ∃ w, Reached att w ∧
    w.writeValue = ⟨att.dataType.kind,[e]⟩ ∧ w.wDimX = 1 ∧ w.wDimY = 0 := by
  refine ⟨_,.written ⟨att.dataType.kind,[e]⟩ 1 0 false .new rfl
    (by simp [lengthWrong,toUnsigned]) (fun _ => by simp),?_⟩
  unfold copyData updateInternalSequence
  split <;> split <;> exact ⟨rfl,rfl,rfl⟩

/-- Successful writes lead to more than one set value. -/
theorem reached_other (att : AttrConf) (z : WAttribute) : ∃ w, Reached att w ∧ ¬ SameSet z w := by
  obtain ⟨e,e',hne⟩ := two_elts att.dataType.kind
  obtain ⟨w,hr,hw,-⟩ := reached_one att e
  obtain ⟨w',hr',hw',-⟩ := reached_one att e'
  by_cases h : SameSet z w
  · refine ⟨w',hr',fun h' => hne ?_⟩
    have heq : w.writeValue = w'.writeValue := h.1.symm.trans h'.1
    rw [hw,hw'] at heq
    simpa using heq
  · exact ⟨w,hr,h⟩

end Reachable

theorem Outcome.Alike.refused {o o' : Outcome dev} {ind : Fin dev.attrs.length} {values : List AttributeValue}
    (h : o.Alike o') (hr : o.Refused ind values) : o'.Refused ind values := by
  cases o <;> cases o' <;> try exact h.elim
  case outOfRange => exact hr
  case thrown =>
    obtain ⟨a,ha,hi,hc⟩ := hr
    exact ⟨a,ha,hi,h.2 ▸ hc⟩
  case ended =>
    obtain ⟨a,ha,hi,hc,he⟩ := hr
    exact ⟨a,ha,hi,h.2.2 ▸ hc,h.2.1 ▸ he⟩

/-- A call that reports an attribute as failed leaves its set value as it was, whatever it was,
exactly when the attribute is undone. -/
theorem refused_write_kept_iff {values : List AttributeValue} {ind : Fin dev.attrs.length}
    {g : Fin dev.attrs.length → WAttribute} (h : (writeAttributes34 dev g values).Refused ind values) :
    KeepsSetValue dev values ind ↔ Undone dev values ind := by
  constructor
  · intro hk
    by_contra hu
    have hne : (passed dev values).filter (fun a => a.idxInMultiAttr = ind) ≠ [] := by
      rcases refused_left h with ⟨_,_,_,hl⟩ | ⟨_,_,_,hl⟩ <;> exact hl.given
    obtain ⟨x,hx,hother⟩ := reached_other dev.attrs[ind] (finalValue ind (passed dev values) (g ind))
    let g' : Fin dev.attrs.length → WAttribute := Function.update (fun i => newWAttribute dev.attrs[i]) ind x
    have hg' : ∀ i, Reached dev.attrs[i] (g' i) := by
      intro i
      by_cases hi : i = ind
      · subst hi
        simpa [g'] using hx
      · simpa [g',hi] using Reached.new
    have hgi : g' ind = x := by simp [g']
    have hr := (writeAttributes34_alike values g g').refused h
    have hkept := hk g' hg' hr
    have hset : ∀ v : Work dev, Left values ind (g' ind) v →
        SameSetValue dev.attrs[ind] (g' ind) (v.wattrs ind) → False := by
      intro v hl hs
      apply hother
      rw [hgi] at hl hs
      refine (finalValue_settled hne hu (g ind) x).trans ?_
      refine SameSet.trans ?_ ⟨hs.writeValue,hs.wDimX,hs.wDimY⟩
      exact ⟨hl.value.1.symm,hl.value.2.1.symm,hl.value.2.2.symm⟩
    rcases refused_left hr with ⟨e,v,ho,hl⟩ | ⟨l,v,ho,hl⟩ <;> rw [ho] at hkept <;> exact hset v hl hkept
  · intro hu g' hg' hr
    have hd := (hg' ind).dims hu.1
    have hset : ∀ v : Work dev, Left values ind (g' ind) v →
        SameSetValue dev.attrs[ind] (g' ind) (v.wattrs ind) := by
      intro v hl
      obtain ⟨hw,hx,hy⟩ := hl.value.trans (finalValue_undone hu hd)
      refine ⟨hw,hx,hy,?_⟩
      have hscalar : dev.attrs[ind].dataFormat = .scalar := hu.1
      rw [setRvalue,setRvalue,if_pos hscalar,if_pos hscalar,hw]
    rcases refused_left hr with ⟨e,v,ho,hl⟩ | ⟨l,v,ho,hl⟩ <;> rw [ho] <;> exact hset v hl

section Calls

def longAttr (name : String) (format : AttrDataFormat) : AttrConf :=
  ⟨name,.readWrite,.long,format,10,0,none,fun _ => none⟩

/-- The write method of the only attribute throws. -/
def failing (att : AttrConf) : DeviceImpl :=
  ⟨[att],5,"ON",fun _ => true,fun _ => ⟨[],some (thrown "Broken" "no answer" "write")⟩,fun _ => .done⟩

def longs (name : String) (l : List Int32) : AttributeValue := ⟨name,l.length,0,.seq ⟨.long,l⟩⟩

/-- A spectrum of one value was written. -/
theorem wave_written : ∀ i : Fin (failing (longAttr "Wave" .spectrum)).attrs.length,
    Reached (failing (longAttr "Wave" .spectrum)).attrs[i]
      ⟨⟨.long,[(7 : Int32)]⟩,⟨.long,[(0 : Int32)]⟩,1,0,⟨.long,[(7 : Int32)]⟩,false⟩
  | ⟨0,_⟩ =>
    have hn : Reached (longAttr "Wave" .spectrum) (newWAttribute (longAttr "Wave" .spectrum)) := .new
    hn.written ⟨.long,[(7 : Int32)]⟩ 1 0 false rfl (by simp [lengthWrong,toUnsigned]) (fun h => by cases h)

/-- Of a refused spectrum the dimensions stay, so that a read goes past the end of the value
written before. -/
theorem longer_spectrum_stays :
    ¬ KeepsSetValue (failing (longAttr "Wave" .spectrum)) [longs "Wave" [1,2]] ⟨0,by decide⟩ := by
  intro h
  have hk := h _ wave_written (by decide)
  exact absurd hk.wDimX (by decide)

theorem refused_scalar_comes_back :
    KeepsSetValue (failing (longAttr "Level" .scalar)) [longs "Level" [1]] ⟨0,by decide⟩ ↔
      Undone (failing (longAttr "Level" .scalar)) [longs "Level" [1]] ⟨0,by decide⟩ :=
  refused_write_kept_iff (g := fun _ => newWAttribute (longAttr "Level" .scalar)) (by decide)

end Calls

end CppTango.Device.Rollback
