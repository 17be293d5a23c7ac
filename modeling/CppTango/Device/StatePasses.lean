import CppTango.Device.ValueThere
import Mathlib.Data.List.Nodup

namespace CppTango.Device.Alarm

open CppTango.Lib

variable {D : DeviceImpl} {now : Int} {readings readings' : Nat → Reading} {i : Nat} {is : List Nat}
  {a : Attribute} {methods : Nat → Method}

theorem mem_alarmList : i ∈ alarmList D ↔
    ∃ a, D.attrs[i]? = some a ∧ a.isAlarmed = true ∧ a.writable ≠ .write := by
  unfold alarmList
  rw [List.mem_filter,List.mem_range]
  cases h : D.attrs[i]? with
  | none => simp
  | some a =>
    have hlt : i < D.attrs.length := (List.getElem?_eq_some_iff.mp h).1
    simp [hlt]

theorem readable_of_alarmed (h : i ∈ alarmList D) : ∀ a, D.attrs[i]? = some a → isReadable a = true := by
  intro a ha
  obtain ⟨b,hb,-,hw⟩ := mem_alarmList.mp h
  cases ha.symm.trans hb
  simp [isReadable,hw]

/-- The attributes of a list that is gone through. -/
structure Visits (D : DeviceImpl) (is : List Nat) : Prop where
  nodup : is.Nodup
  present : ∀ i ∈ is, ∃ a, D.attrs[i]? = some a

theorem Visits.cons (h : Visits D (i :: is)) :
    (∃ a, D.attrs[i]? = some a) ∧ (∀ j ∈ is, j ≠ i) ∧ Visits D is := by
  obtain ⟨hi,hn⟩ := List.nodup_cons.mp h.nodup
  exact ⟨h.present i List.mem_cons_self,fun j hj he => hi (he ▸ hj),hn,
    fun j hj => h.present j (List.mem_cons_of_mem i hj)⟩

theorem Visits.filter (h : Visits D is) (p : Nat → Bool) : Visits D (is.filter p) :=
  ⟨h.nodup.filter p,fun i hi => h.present i (List.mem_of_mem_filter hi)⟩

theorem visits_alarmList : Visits D (alarmList D) := by
  refine ⟨List.nodup_range.filter _,fun i hi => ?_⟩
  obtain ⟨a,ha,-⟩ := mem_alarmList.mp hi
  exact ⟨a,ha⟩

/-- The pass over the write attributes changes no others. -/
theorem write_pass_others {list : List (Nat × Method)} (h : ∀ a, D.attrs[i]? = some a → isReadable a = true) :
    (writePass D list readings).2 i = readings i := by
  induction list generalizing readings with
  | nil => rfl
  | cons p list ih =>
    obtain ⟨j,m⟩ := p
    unfold writePass
    cases ha : D.attrs[j]?.filter (fun a => !isReadable a) with
    | none => exact ih
    | some a =>
      obtain ⟨hattr,hw⟩ := Option.filter_eq_some_iff.mp ha
      have hne : i ≠ j := by
        rintro rfl
        rw [h a hattr] at hw
        cases hw
      exact ih.trans (Function.update_of_ne hne _ _)

section Pass
variable {P : Nat → Attribute → Method → Reading → List Nat → Prop} {list : List (Nat × Method)} {m : Method}

/-- The attributes of a list that are read. -/
def readList (D : DeviceImpl) (list : List (Nat × Method)) : List Nat :=
  (list.map Prod.fst).filter (fun i => D.attrs[i]?.any isReadable)

theorem readList_skip (h : D.attrs[i]?.filter isReadable = none) :
    readList D ((i,m) :: list) = readList D list := by
  have hn : ¬D.attrs[i]?.any isReadable = true := by
    cases ha : D.attrs[i]? with
    | none => simp
    | some a => simpa [ha] using h
  exact List.filter_cons_of_neg hn

theorem readList_read (h : D.attrs[i]?.filter isReadable = some a) :
    readList D ((i,m) :: list) = i :: readList D list := by
  obtain ⟨ha,hr⟩ := Option.filter_eq_some_iff.mp h
  exact List.filter_cons_of_pos (by simpa [ha] using hr)

theorem mem_readList (h : D.attrs[i]?.filter isReadable = some a) (hi : i ∈ list.map Prod.fst) :
    i ∈ readList D list := by
  obtain ⟨ha,hr⟩ := Option.filter_eq_some_iff.mp h
  exact List.mem_filter.mpr ⟨hi,by simpa [ha] using hr⟩

/-- The last entry of a list for an attribute. -/
def lastOf (i : Nat) : List (Nat × Method) → Option Method
  | [] => none
  | (j,m) :: list => (lastOf i list).or (if j = i then some m else none)

theorem lastOf_none : lastOf i list = none ↔ i ∉ list.map Prod.fst := by
  induction list with
  | nil => simp [lastOf]
  | cons p list ih =>
    rw [lastOf,Option.or_eq_none_iff,ih,List.map_cons,List.mem_cons,not_or,and_comm]
    by_cases hi : p.1 = i
    · simp [hi]
    · simp [hi,Ne.symm hi]

theorem mem_of_lastOf (h : lastOf i list = some m) : (i,m) ∈ list := by
  induction list with
  | nil => cases h
  | cons p list ih =>
    obtain ⟨j,m'⟩ := p
    rw [lastOf,Option.or_eq_some_iff] at h
    rcases h with h | ⟨-,h⟩
    · exact List.mem_cons_of_mem _ (ih h)
    · split at h
      · rename_i he
        cases h
        exact he ▸ List.mem_cons_self
      · cases h

/-- What holds of every reading of the pass, given what is read behind it. -/
def PassAll (D : DeviceImpl) (now : Int) (P : Nat → Attribute → Method → Reading → List Nat → Prop) :
    List (Nat × Method) → (Nat → Reading) → Prop
  | [],_ => True
  | (i,m) :: list,readings =>
    match D.attrs[i]?.filter isReadable with
    | none => PassAll D now P list readings
    | some a =>
      P i a m (readings i) (readList D list) ∧
        ∀ failed r, readWanted a now m (readings i) = .ok (failed,r) →
          PassAll D now P list (Function.update readings i r)

/-- The pass leaves of every attribute it reads what its last reading left. -/
structure Passed (D : DeviceImpl) (now : Int) (P : Nat → Attribute → Method → Reading → List Nat → Prop)
    (list : List (Nat × Method)) (readings : Nat → Reading) (p : List Bool × (Nat → Reading)) : Prop where
  others : ∀ i, i ∉ readList D list → p.2 i = readings i
  read : ∀ i ∈ readList D list, ∀ a, D.attrs[i]? = some a → ∃ m r failed later,
    lastOf i list = some m ∧ P i a m r later ∧ i ∉ later ∧ readWanted a now m r = .ok (failed,p.2 i)

theorem pass_yields (h : PassAll D now P list readings) :
    Yields (Passed D now P list readings)
      (fun e => ∃ i a m r later, P i a m r later ∧ readWanted a now m r = .error e)
      (readPass D now list readings) := by
  induction list generalizing readings with
  | nil => exact ⟨fun _ _ => rfl,fun _ h => absurd h List.not_mem_nil⟩
  | cons p list ih =>
    obtain ⟨i,m⟩ := p
    unfold PassAll at h
    unfold readPass
    cases ha : D.attrs[i]?.filter isReadable with
    | none =>
      rw [ha] at h
      refine (ih h).bind (fun q hq => ⟨fun j hj => ?_,fun j hj b hb => ?_⟩)
      · exact hq.others j (readList_skip ha ▸ hj)
      · obtain ⟨m',r,failed,later,hlast,hread⟩ := hq.read j (readList_skip ha ▸ hj) b hb
        exact ⟨m',r,failed,later,by rw [lastOf,hlast]; rfl,hread⟩
    | some a =>
      rw [ha] at h
      obtain ⟨hp,hrest⟩ := h
      obtain ⟨hattr,-⟩ := Option.filter_eq_some_iff.mp ha
      simp only []
      cases hw : readWanted a now m (readings i) with
      | error e => exact ⟨i,a,m,readings i,_,hp,hw⟩
      | ok p =>
        obtain ⟨failed,r⟩ := p
        refine (ih (hrest failed r hw)).bind (fun q hq => ⟨fun j hj => ?_,fun j hj b hb => ?_⟩)
        · rw [readList_read ha] at hj
          obtain ⟨hne,hj⟩ := not_or.mp (fun h => hj (List.mem_cons.mpr h))
          exact (hq.others j hj).trans (Function.update_of_ne hne _ _)
        · rw [readList_read ha] at hj
          by_cases hlater : j ∈ readList D list
          · obtain ⟨m',r',failed',later,hlast,hread⟩ := hq.read j hlater b hb
            exact ⟨m',r',failed',later,by rw [lastOf,hlast]; rfl,hread⟩
          · obtain rfl : j = i := (List.mem_cons.mp hj).resolve_right hlater
            cases hattr.symm.trans hb
            have hkept : q.2 j = r := (hq.others j hlater).trans (Function.update_self _ _ _)
            have hlast : lastOf j ((j,m) :: list) = some m := by
              rw [lastOf,lastOf_none.mpr (fun h => hlater (mem_readList ha h)),if_pos rfl]
              rfl
            exact ⟨m,readings j,failed,readList D list,hlast,hp,hlater,hkept ▸ hw⟩

end Pass

section Own
variable {m : Method} {r : Reading}

/-- `dev_state` forces INVALID on an attribute without a value, and keeps any other quality. -/
theorem own_quality (ha : m.isAllowed = true) (hgo : m.ends ≠ .other) :
    (readForState a m r).2.2.quality =
      if (m.after a r).value = none then .invalid else (m.after a r).quality := by
  unfold readForState
  rw [ha,if_neg Bool.noConfusion]
  simp only [if_neg hgo]
  by_cases hv : (m.after a r).value = none
  · by_cases hq : (m.after a r).quality = .invalid <;> by_cases hf : m.ends = .devFailed <;>
      simp [hv,hq,hf]
  · by_cases hf : m.ends = .devFailed
    · by_cases hq : (m.after a r).quality = .invalid <;> simp [hv,hq,hf,Reading.deleteSeq]
    · simp [hv,hf]

theorem own_returned (ha : m.isAllowed = true) (he : m.ends = .returns) (hv : (m.after a r).value ≠ none) :
    (readForState a m r).2.2 = m.after a r := by
  unfold readForState
  simp [ha,he,hv]

theorem own_goes_on : (readForState a m r).1 = true ↔ (m.isAllowed = true → m.ends ≠ .other) := by
  unfold readForState
  cases ha : m.isAllowed with
  | false => simp
  | true =>
    by_cases he : m.ends = .other
    · simp [he]
    · simp only [if_neg he,Bool.true_eq_false,if_false]
      split <;> simp [he]


/-- The attributes `dev_state` reads itself. -/
def ownList (D : DeviceImpl) (wanted : List Nat) : List Nat := (alarmList D).filter (fun i => i ∉ wanted)

theorem mem_ownList {wanted : List Nat} : i ∈ ownList D wanted ↔ i ∈ alarmList D ∧ i ∉ wanted := by
  simp [ownList,List.mem_filter]

theorem visits_ownList {wanted : List Nat} : Visits D (ownList D wanted) := visits_alarmList.filter _

/-- `dev_state` goes on after its readings if it goes on after each; then it leaves what each left. -/
structure OwnReads (D : DeviceImpl) (methods : Nat → Method) (is : List Nat) (readings : Nat → Reading)
    (p : Bool × (Nat → Bool) × (Nat → Reading)) : Prop where
  goesOn : p.1 = true ↔ ∀ i ∈ is, ∀ a, D.attrs[i]? = some a →
    (readForState a (methods i) (readings i)).1 = true
  read : p.1 = true → ∀ i ∈ is, ∀ a, D.attrs[i]? = some a →
    p.2.2 i = (readForState a (methods i) (readings i)).2.2
  others : ∀ i, i ∉ is → p.2.2 i = readings i

theorem own_reads (h : Visits D is) : OwnReads D methods is readings (stateReads D methods is readings) := by
  induction is generalizing readings with
  | nil => exact ⟨by simp [stateReads],fun _ _ h => absurd h List.not_mem_nil,fun _ _ => rfl⟩
  | cons i is ih =>
    obtain ⟨⟨a,ha⟩,hne,hvisits⟩ := h.cons
    obtain ⟨hgo,hread,hothers⟩ := @ih (Function.update readings i
      (readForState a (methods i) (readings i)).2.2) hvisits
    have hkept : ∀ j ∈ is, Function.update readings i (readForState a (methods i) (readings i)).2.2 j =
        readings j := fun j hj => Function.update_of_ne (hne j hj) _ _
    rw [stateReads,ha]
    simp only []
    cases hg : (readForState a (methods i) (readings i)).1 with
    | false =>
      refine ⟨⟨Bool.noConfusion,fun h => ?_⟩,Bool.noConfusion,fun j hj => ?_⟩
      · exact hg.symm.trans (h i List.mem_cons_self a ha)
      · obtain ⟨hj,-⟩ := not_or.mp (fun h => hj (List.mem_cons.mpr h))
        exact Function.update_of_ne hj _ _
    | true =>
      refine ⟨⟨fun h j hj b hb => ?_,fun h => hgo.mpr (fun j hj b hb => ?_)⟩,fun h j hj b hb => ?_,
        fun j hj => ?_⟩
      · rcases List.mem_cons.mp hj with rfl | hj
        · cases ha.symm.trans hb
          exact hg
        · exact hkept j hj ▸ hgo.mp h j hj b hb
      · rw [hkept j hj]
        exact h j (List.mem_cons_of_mem i hj) b hb
      · rcases List.mem_cons.mp hj with rfl | hj
        · cases ha.symm.trans hb
          exact (hothers j (fun h => hne j h rfl)).trans (Function.update_self _ _ _)
        · exact hkept j hj ▸ hread h j hj b hb
      · obtain ⟨hi,hj⟩ := not_or.mp (fun h => hj (List.mem_cons.mpr h))
        exact (hothers j hj).trans (Function.update_of_ne hi _ _)

end Own

section Check

/-- What becomes of a reading that `MultiAttribute::check_alarm` visits. -/
def Rechecked (a : Attribute) (now : Int) (r r' : Reading) : Prop :=
  r.quality = .invalid ∧ r' = r ∨ r.quality ≠ .invalid ∧ ∃ hit, evaluateAlarm a now r = .ok (hit,r')

/-- What `MultiAttribute::check_alarm` answers, and what it leaves. -/
structure Evaluated (D : DeviceImpl) (now : Int) (is : List Nat) (readings : Nat → Reading)
    (p : Bool × (Nat → Reading)) : Prop where
  hit : p.1 = true ↔ ∃ i ∈ is, isAlarmedQuality (p.2 i).quality = true
  each : ∀ i ∈ is, ∀ a, D.attrs[i]? = some a → Rechecked a now (readings i) (p.2 i)
  others : ∀ i, i ∉ is → p.2 i = readings i

theorem Evaluated.cons {b rest : Bool} {final : Nat → Reading}
    (h : Evaluated D now is readings' (rest,final)) (hne : ∀ j ∈ is, j ≠ i)
    (hr : ∀ j, j ≠ i → readings' j = readings j) (ha : D.attrs[i]? = some a)
    (hc : Rechecked a now (readings i) (readings' i)) (hb : b = isAlarmedQuality (readings' i).quality) :
    Evaluated D now (i :: is) readings (b || rest,final) := by
  have hfinal : final i = readings' i := h.others i (fun hi => hne i hi rfl)
  refine ⟨?_,fun j hj c hc' => ?_,fun j hj => ?_⟩
  · rw [Bool.or_eq_true,hb,← hfinal,h.hit]
    simp only [List.mem_cons,exists_eq_or_imp]
  · rcases List.mem_cons.mp hj with rfl | hj
    · cases ha.symm.trans hc'
      change Rechecked a now (readings j) (final j)
      rwa [hfinal]
    · exact hr j (hne j hj) ▸ h.each j hj c hc'
  · obtain ⟨hne,hj⟩ := not_or.mp (fun h => hj (List.mem_cons.mpr h))
    exact (h.others j hj).trans (hr j hne)

/-- The quality found before an evaluation adds nothing to its answer. -/
theorem Settled.here {r : Reading} {p : Bool × Reading} (h : Settled r p) :
    (decide (r.quality = .alarm) || p.1) = isAlarmedQuality p.2.quality := by
  rw [h.hit]
  cases ha : isAlarmedQuality p.2.quality with
  | true => exact Bool.or_true _
  | false =>
    rw [h.kept ha] at ha
    have hn : r.quality ≠ .alarm := fun he => by
      rw [he] at ha
      cases ha
    simp [hn]

/-- An exception of `MultiAttribute::check_alarm` comes from the evaluation of an attribute. -/
def Stopped (D : DeviceImpl) (now : Int) (is : List Nat) (readings : Nat → Reading) (e : Halt) : Prop :=
  ∃ i ∈ is, ∃ a, D.attrs[i]? = some a ∧ (readings i).quality ≠ .invalid ∧
    evaluateAlarm a now (readings i) = .error e

theorem check_alarms (h : Visits D is) :
    Yields (Evaluated D now is readings) (Stopped D now is readings) (checkAlarms D now is readings) := by
  induction is generalizing readings with
  | nil => exact ⟨by simp,fun _ h => absurd h List.not_mem_nil,fun _ _ => rfl⟩
  | cons i is ih =>
    obtain ⟨⟨a,ha⟩,hne,hvisits⟩ := h.cons
    have hlater {readings' : Nat → Reading} {e : Halt} (hr : ∀ j, j ≠ i → readings' j = readings j)
        (hs : Stopped D now is readings' e) : Stopped D now (i :: is) readings e := by
      obtain ⟨j,hj,b,hb,hbad⟩ := hs
      exact ⟨j,List.mem_cons_of_mem i hj,b,hb,hr j (hne j hj) ▸ hbad⟩
    rw [checkAlarms,ha]
    simp only []
    split
    · rename_i hq
      cases he : evaluateAlarm a now (readings i) with
      | error e => exact ⟨i,List.mem_cons_self,a,ha,hq,he⟩
      | ok p =>
        have hkept : ∀ j, j ≠ i → Function.update readings i p.2 j = readings j :=
          fun j hj => Function.update_of_ne hj _ _
        have hrest := (@ih (Function.update readings i p.2) hvisits).imp (fun _ h => h)
          (fun e => hlater hkept)
        refine hrest.bind (fun q hq' => ?_)
        refine hq'.cons hne hkept ha ?_ ?_
        · exact Or.inr ⟨hq,p.1,by rw [Function.update_self]; exact he⟩
        · rw [Function.update_self]
          have hsettled : Settled (readings i) p := (evaluate_yields hq).of_ok he
          exact hsettled.here
    · rename_i hq
      refine (ih hvisits).imp (fun p hp => ?_) (fun e => hlater (fun _ _ => rfl))
      refine Evaluated.cons (b := false) hp hne (fun _ _ => rfl) ha (Or.inl ⟨not_not.mp hq,rfl⟩) ?_
      rw [not_not.mp hq]
      rfl

end Check

end CppTango.Device.Alarm
