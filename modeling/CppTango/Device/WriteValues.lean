import CppTango.Device.WriteSpec

namespace CppTango.Device.Write

open CppTango.Lib

variable {α : Type} {dev : DeviceImpl α}

section Kept
variable {l l' : List (AttIdx α)} {w w' : Work α} {ind : Nat} {P : WAttribute α → Prop}

theorem multiLoop_inv {es : List (String × DevErrorList)}
    (hroll : ∀ a ∈ l, a.idxInMultiAttr = ind → ∀ scalar x, P x → P (rollback scalar x))
    (h : multiLoop dev es l w = some (l',w')) (hp : P (w.wattrs ind)) : P (w'.wattrs ind) := by
  induction es generalizing l w with
  | nil =>
    cases h
    exact hp
  | cons ne es ih =>
    obtain ⟨n,e⟩ := ne
    rw [multiLoop] at h
    split at h
    next => cases h
    next a hf =>
      apply ih (fun b hb => hroll b (List.mem_of_mem_eraseP hb)) h
      simp only [Work.fail,Work.upd]
      by_cases hi : ind = a.idxInMultiAttr
      · rw [hi,Function.update_self]
        exact hroll a (List.mem_of_find?_eq_some hf) hi.symm _ _ (hi ▸ hp)
      · rw [Function.update_of_ne hi]
        exact hp

theorem hardware_inv
    (hroll : ∀ a ∈ l, a.idxInMultiAttr = ind → ∀ scalar x, P x → P (rollback scalar x))
    (h : hardware dev l w = some (l',w')) (hp : P (w.wattrs ind)) : P (w'.wattrs ind) := by
  unfold hardware at h
  split at h
  next =>
    split at h
    next =>
      cases h
      exact hp
    next e hr =>
      cases h
      rw [failAll_eq]
      exact updSlots_inv (fun a ha hi x hx => hroll a ha hi _ x hx) hp
    next => exact multiLoop_inv hroll h hp
  next =>
    cases h
    exact hp

theorem multiLoop_subset {es : List (String × DevErrorList)}
    (h : multiLoop dev es l w = some (l',w')) : ∀ a ∈ l', a ∈ l := by
  induction es generalizing l w with
  | nil =>
    cases h
    exact fun a ha => ha
  | cons ne es ih =>
    obtain ⟨n,e⟩ := ne
    rw [multiLoop] at h
    split at h
    next => cases h
    next => exact fun a ha => List.mem_of_mem_eraseP (ih h a ha)

theorem hardware_subset (h : hardware dev l w = some (l',w')) : ∀ a ∈ l', a ∈ l := by
  unfold hardware at h
  split at h
  next =>
    split at h
    next =>
      cases h
      exact fun a ha => ha
    next =>
      cases h
      exact fun a ha => (by cases ha)
    next => exact multiLoop_subset h
  next =>
    cases h
    exact fun a ha => ha

theorem afterChecks_subset {r : List (AttIdx α) × Work α} (h : afterChecks dev l w = some r) :
    ∀ a ∈ r.1, a ∈ l := by
  unfold afterChecks at h
  split at h
  next =>
    intro a ha
    have hw := hardware_subset h a ha
    rw [writeLoop_eq] at hw
    exact (List.mem_filter.mp hw).1
  next =>
    cases h
    exact fun a ha => ha

/-- What is true of an attribute's value when the checks are over, and kept by each of the later
steps, is true of it in the end, whether it was written or rolled back. -/
theorem afterChecks_inv {out : Work α}
    (hroll : ∀ a ∈ l, a.idxInMultiAttr = ind → ∀ scalar x, P x → P (rollback scalar x))
    (hreset : ∀ a ∈ l, a.idxInMultiAttr = ind → ∀ x, P x → P { x with userSetWriteValue := false })
    (hwritten : ∀ a ∈ l, a.idxInMultiAttr = ind → ∀ x, P x → P (written dev a x))
    (hcopy : ∀ a ∈ l, a.idxInMultiAttr = ind → ∀ x, P x → P (copyData a x))
    (h : (afterChecks dev l w).map (fun r => memorize dev r.1 (copyLoop r.1 r.2)) = some out)
    (hp : P (w.wattrs ind)) : P (out.wattrs ind) := by
  obtain ⟨r,hr,rfl⟩ := Option.map_eq_some_iff.mp h
  have hsub := afterChecks_subset hr
  rw [memorize_eq,copyLoop_eq]
  apply updSlots_inv (fun a ha hi x hx => hcopy a (hsub a ha) hi x hx)
  unfold afterChecks at hr
  split at hr
  next =>
    have hroll' : ∀ a ∈ (writeLoop dev l w).1, a.idxInMultiAttr = ind → ∀ scalar x, P x →
        P (rollback scalar x) := by
      intro a ha
      rw [writeLoop_eq] at ha
      exact hroll a (List.mem_filter.mp ha).1
    apply hardware_inv hroll' hr
    rw [writeLoop_eq]
    apply updSlots_inv _ hp
    intro a ha hi x hx
    unfold writtenValue
    split
    · exact hwritten a ha hi _ (hreset a ha hi x hx)
    · exact hroll a ha hi _ _ (hreset a ha hi x hx)
  next =>
    cases hr
    exact hp

end Kept

section Success
variable {l l' : List (AttIdx α)} {w w' : Work α}

theorem checkLoop_clean {front rest : List (AttIdx α)} (h : checkLoop dev front rest w = some (l,w'))
    (he : w'.errs = []) : w.errs = [] ∧ l = front ++ rest ∧ (∀ a ∈ rest, dev.check a = .passed) ∧
      w'.wattrs = updSlots AttIdx.idxInMultiAttr (checkedValue dev) rest w.wattrs := by
  induction rest generalizing front w with
  | nil =>
    cases h
    exact ⟨he,by simp,fun a ha => (by cases ha),rfl⟩
  | cons a rest ih =>
    rw [checkLoop] at h
    cases hc : dev.check a with
    | outOfRange =>
      rw [hc] at h
      cases h
    | passed =>
      rw [hc] at h
      obtain ⟨h0,hl,hall,hw⟩ := ih h
      refine ⟨h0,by simp [hl],?_,?_⟩
      · intro b hb
        rcases List.mem_cons.mp hb with rfl | hb
        · exact hc
        · exact hall b hb
      · rw [hw,updSlots_cons]
        simp [Work.note,Work.upd,checkedValue,hc]
    | failed e =>
      simp only [hc] at h
      split at h
      next =>
        cases h
        simp [Work.fail] at he
      next =>
        have h0 := (ih h).1
        simp [Work.fail] at h0

/-- The loop when every value is good. -/
theorem checkLoop_all {front rest : List (AttIdx α)} (h : ∀ a ∈ rest, dev.check a = .passed) (w : Work α) :
    checkLoop dev front rest w = some (front ++ rest,
      ⟨updSlots AttIdx.idxInMultiAttr (checkedValue dev) rest w.wattrs,w.errs,
        w.log ++ rest.map (fun a => .checked a.idxInNames)⟩) := by
  induction rest generalizing front w with
  | nil => simp [checkLoop,updSlots]
  | cons a rest ih =>
    have hc := h a List.mem_cons_self
    rw [checkLoop,hc]
    dsimp only
    rw [ih (fun b hb => h b (List.mem_cons_of_mem _ hb)),updSlots_cons]
    simp [Work.note,Work.upd,checkedValue,hc]

theorem multiLoop_clean {es : List (String × DevErrorList)} (h : multiLoop dev es l w = some (l',w'))
    (he : w'.errs = []) : w.errs = [] ∧ l' = l ∧ w' = w := by
  induction es generalizing l w with
  | nil =>
    cases h
    exact ⟨he,rfl,rfl⟩
  | cons ne es ih =>
    obtain ⟨n,e⟩ := ne
    rw [multiLoop] at h
    split at h
    next => cases h
    next a hf =>
      have h0 := (ih h).1
      simp [Work.fail] at h0

theorem hardware_clean (h : hardware dev l w = some (l',w')) (he : w'.errs = []) :
    w.errs = [] ∧ l' = l ∧ w'.wattrs = w.wattrs := by
  unfold hardware at h
  split at h
  next =>
    split at h
    next =>
      cases h
      exact ⟨he,rfl,rfl⟩
    next e hr =>
      cases h
      rw [failAll_eq] at he ⊢
      obtain ⟨h0,hl⟩ := List.append_eq_nil_iff.mp he
      have hnil : l = [] := by
        cases l with
        | nil => rfl
        | cons a l => simp [named] at hl
      subst hnil
      exact ⟨h0,rfl,rfl⟩
    next =>
      obtain ⟨h0,hl,hw⟩ := multiLoop_clean h he
      exact ⟨h0,hl,by rw [hw]⟩
  next =>
    cases h
    exact ⟨he,rfl,rfl⟩

/-- A call without error has gone through every element in all its loops. -/
theorem writeAttributes34_clean {wattrs : Nat → WAttribute α} {values : List (AttributeValue α)}
    {out : Work α} (h : writeAttributes34 dev wattrs values = some out) (he : out.errs = []) :
    (selectAll dev 0 values).2 = [] ∧ (∀ a ∈ selected dev values, dev.check a = .passed) ∧
      (∀ a ∈ selected dev values, dev.writeOne a = none) ∧
      out.wattrs = updSlots AttIdx.idxInMultiAttr copyData (selected dev values)
        (updSlots AttIdx.idxInMultiAttr (writtenValue dev) (selected dev values)
          (updSlots AttIdx.idxInMultiAttr (checkedValue dev) (selected dev values) wattrs)) := by
  have hsel : (selectAll dev 0 values).1 = selected dev values := selectAll_selected values
  cases hc : checkLoop dev [] (selected dev values) (begun dev wattrs values) with
  | none =>
    unfold begun at hc
    unfold writeAttributes34 at h
    simp [hsel,hc] at h
  | some r =>
    obtain ⟨l,w⟩ := r
    rw [writeAttributes34_eq hc] at h
    obtain ⟨r,hr,rfl⟩ := Option.map_eq_some_iff.mp h
    rw [memorize_eq,copyLoop_eq] at he ⊢
    have he' : r.2.errs = [] := (List.append_eq_nil_iff.mp he).1
    unfold afterChecks at hr
    split at hr
    next hne =>
      obtain ⟨h1,hl,hw⟩ := hardware_clean hr he'
      rw [writeLoop_eq] at h1 hl hw
      obtain ⟨h0,hf⟩ := List.append_eq_nil_iff.mp h1
      have hone : ∀ a ∈ l, dev.writeOne a = none := by
        intro a ha
        have hn := List.filterMap_eq_nil_iff.mp hf a ha
        unfold named at hn
        simpa using hn
      obtain ⟨hb,hl1,hall,hw1⟩ := checkLoop_clean hc h0
      rw [List.nil_append] at hl1
      subst hl1
      have hlist : r.1 = selected dev values := by
        rw [hl]
        exact List.filter_eq_self.mpr (fun a ha => by simpa using hone a ha)
      refine ⟨hb,hall,hone,?_⟩
      simp only [hlist,hw,hw1]
      rfl
    next hne =>
      cases hr
      obtain ⟨hb,hl1,hall,hw1⟩ := checkLoop_clean hc he'
      have hnil : l = [] := not_not.mp hne
      rw [List.nil_append,hnil] at hl1
      rw [← hl1,hnil] at *
      exact ⟨hb,hall,fun a ha => (by cases ha),by simpa [updSlots,begun] using hw1⟩

/-- The write methods do not set the written value themselves. -/
def Plain (dev : DeviceImpl α) : Prop :=
  ∀ i, dev.write i = .done none ∨ ∃ e, dev.write i = .devFailed e

theorem Plain.written (h : Plain dev) (a : AttIdx α) (x : WAttribute α) : written dev a x = x := by
  unfold Write.written
  rcases h a.idxInMultiAttr with h | ⟨e,h⟩ <;> rw [h]

/-- Up to the copying of the data the last written value is the one before. -/
theorem lastWritten_before (hw : Plain dev) (l : List (AttIdx α)) (wattrs : Nat → WAttribute α)
    (ind : Nat) :
    (updSlots AttIdx.idxInMultiAttr (writtenValue dev) l
      (updSlots AttIdx.idxInMultiAttr (checkedValue dev) l wattrs) ind).lastWrittenValue =
        (wattrs ind).lastWrittenValue := by
  apply updSlots_inv (P := fun x : WAttribute α => x.lastWrittenValue = (wattrs ind).lastWrittenValue)
  · intro a _ _ x hx
    unfold writtenValue
    split
    · rw [hw.written]
      exact hx
    · unfold rollback
      split <;> exact hx
  · apply updSlots_inv
      (P := fun x : WAttribute α => x.lastWrittenValue = (wattrs ind).lastWrittenValue)
    · intro a _ _ x hx
      unfold checkedValue setValue
      repeat' split
      all_goals exact hx
    · rfl

/-- The write loop marks an attribute as not set by its method. -/
theorem userSet_before (hw : Plain dev) (l : List (AttIdx α)) (wattrs : Nat → WAttribute α)
    (ind : Nat) (hm : l.filter (fun a => a.idxInMultiAttr = ind) ≠ []) :
    (updSlots AttIdx.idxInMultiAttr (writtenValue dev) l wattrs ind).userSetWriteValue = false := by
  rw [updSlots_apply]
  obtain ⟨front,a,hfa⟩ := List.eq_nil_or_concat _ |>.resolve_left hm
  rw [hfa,List.concat_eq_append,List.foldl_append]
  simp only [List.foldl_cons,List.foldl_nil]
  unfold writtenValue
  split
  · rw [hw.written]
  · unfold rollback
    split <;> rfl

theorem copyData_foldl (m : List (AttIdx α)) (x : WAttribute α) (h : x.userSetWriteValue = false) :
    (m.foldl (fun x a => copyData a x) x).lastWrittenValue =
      (m.getLast?.map (fun a => a.value.seq)).getD x.lastWrittenValue := by
  induction m generalizing x with
  | nil => rfl
  | cons a m ih =>
    have hc : copyData a x = { x with lastWrittenValue := a.value.seq } := by
      simp [copyData,h]
    rw [List.foldl_cons,hc]
    have h' := ih { x with lastWrittenValue := a.value.seq } h
    cases m with
    | nil => rfl
    | cons b m =>
      rw [h',List.getLast?_cons_cons]
      cases hg : (b::m).getLast? with
      | none => simp at hg
      | some c => rfl

/-- The value last written to an attribute by a call without error. -/
theorem lastWritten_clean {wattrs : Nat → WAttribute α} {values : List (AttributeValue α)}
    {out : Work α} (h : writeAttributes34 dev wattrs values = some out) (he : out.errs = [])
    (hw : Plain dev) (ind : Nat) :
    (out.wattrs ind).lastWrittenValue =
      ((((selected dev values).filter (fun a => a.idxInMultiAttr = ind)).getLast?).map
        (fun a => a.value.seq)).getD (wattrs ind).lastWrittenValue := by
  obtain ⟨-,-,-,hout⟩ := writeAttributes34_clean h he
  rw [hout,updSlots_apply]
  by_cases hm : (selected dev values).filter (fun a => a.idxInMultiAttr = ind) = []
  · rw [hm]
    exact lastWritten_before hw _ _ _
  · rw [copyData_foldl _ _ (userSet_before hw _ _ _ hm),lastWritten_before hw]

end Success

end CppTango.Device.Write
