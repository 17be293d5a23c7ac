import CppTango.Device.StatePasses

namespace CppTango.Device.Alarm

open CppTango.Lib

section Outcome
variable {a : Attribute} {m : Method} {r r' x y : Reading} {now : Int} {hit : Bool}

/-- An attribute that was never read. -/
def Reading.initial : Reading := ⟨none,0,.valid,fun _ => false⟩

/-- Readings that are the same if one of them has a value. -/
def Alike (r r' : Reading) : Prop := r = r' ∨ r.value = none ∧ r'.value = none

theorem apply_alike (h : Alike r r') (act : Act) : Alike (act.apply a r) (act.apply a r') := by
  cases act with
  | setValue v =>
    by_cases hf : v.fits a = true
    · exact Or.inl (by simp [Act.apply,hf])
    · simpa [Act.apply,hf] using h
  | setValueQuality v q =>
    by_cases hf : v.fits a = true
    · exact Or.inl (by simp [Act.apply,hf])
    · simpa [Act.apply,hf] using h
  | setNull n => exact h.imp (fun he => by rw [he]) id
  | setQuality q => exact h.imp (fun he => by rw [he]) id

theorem acts_alike (acts : List Act) (h : Alike r r') :
    Alike (acts.foldl (Act.apply a) r) (acts.foldl (Act.apply a) r') := by
  induction acts generalizing r r' with
  | nil => exact h
  | cons act acts ih => exact ih (apply_alike h act)

/-- What a read method that sets a value leaves does not depend on earlier readings. -/
theorem after_alike (r r' : Reading) : Alike (m.after a r) (m.after a r') :=
  acts_alike m.acts (Or.inr ⟨rfl,rfl⟩)

/-- The reading succeeds. -/
def Method.delivers (a : Attribute) (m : Method) : Prop :=
  m.ends = .returns ∧ (m.after a .initial).value ≠ none

instance : Decidable (m.delivers a) := inferInstanceAs (Decidable (_ ∧ _))

theorem after_none_iff : (m.after a r).value = none ↔ (m.after a r').value = none := by
  rcases @after_alike a m r r' with h | ⟨h,h'⟩
  · rw [h]
  · exact iff_of_true h h'

theorem delivers_after (h : m.delivers a) : m.after a r = m.after a r' := by
  rcases @after_alike a m r r' with hr | ⟨hr,-⟩
  · exact hr
  · exact absurd (after_none_iff.mp hr) h.2

theorem levels_none (hn : ¬evaluatesLevel a r) (hq : a.isFwd = true ∨ r.quality = .valid) :
    checkLevels a r = .ok (false,r) ∧ checkWarnings a (isAlarmedQuality r.quality) r = .ok (false,r) := by
  have hlevel : ¬(a.alarmConf .minLevel = true ∨ a.alarmConf .maxLevel = true) :=
    fun h => hn ⟨hq,h.imp id Or.inl⟩
  have hwarn : ¬(isAlarmedQuality r.quality = false ∧
      (a.alarmConf .minWarn = true ∨ a.alarmConf .maxWarn = true)) :=
    fun h => hn ⟨hq,Or.inr (Or.inr h)⟩
  exact ⟨if_neg hlevel,if_neg hwarn⟩

theorem rds_none (hv : r.value = none) (h : checkRds a now r = .ok (hit,r')) : r' = r := by
  unfold checkRds checkRdsAlarm at h
  rw [hv] at h
  split at h
  · cases hw : a.written with
    | none =>
      rw [hw] at h
      cases h
      rfl
    | some w =>
      rw [hw] at h
      simp only [] at h
      split at h
      · cases h
        rfl
      · split at h
        · cases ht : a.dataType <;> rw [ht] at h <;> cases h
        · cases h
          rfl
  · cases h
    rfl

theorem check_none (hv : r.value = none) (hn : ¬evaluatesLevel a r)
    (h : checkAlarm a now r = .ok (hit,r')) : r' = r := by
  unfold checkAlarm at h
  simp only [] at h
  split at h
  · cases h
  · split at h
    · cases h
      rfl
    · rename_i hq
      have hquality : a.isFwd = true ∨ r.quality = .valid := by
        by_cases hf : a.isFwd = true
        · exact Or.inl hf
        · exact Or.inr (by_contra (fun hv => hq ⟨Bool.eq_false_iff.mpr hf,hv⟩))
      obtain ⟨hl,hw⟩ := levels_none hn hquality
      obtain ⟨⟨level,r₁⟩,hlevel,h⟩ := except_bind_ok.mp h
      cases hl.symm.trans hlevel
      obtain ⟨⟨warn,r₂⟩,hwarn,h⟩ := except_bind_ok.mp h
      rw [Bool.or_false] at hwarn
      cases hw.symm.trans hwarn
      obtain ⟨⟨rds,r₃⟩,hrds,h⟩ := except_bind_ok.mp h
      cases h
      exact rds_none hv hrds

/-- An evaluation without a value finds nothing. -/
theorem evaluate_none (hv : r.value = none) (h : evaluateAlarm a now r = .ok (hit,r')) : r' = r := by
  unfold evaluateAlarm at h
  split at h
  · cases h
  · rename_i hn
    have hlevel : ¬evaluatesLevel a r := fun hl => hn ⟨hl,elements_none hv⟩
    cases hc : checkAlarm a now r with
    | error e =>
      rw [hc] at h
      cases h
    | ok p =>
      rw [hc] at h
      cases h
      exact check_none hv hlevel hc

theorem Rechecked.det (hx : Rechecked a now r x) (hy : Rechecked a now r y) : x = y := by
  rcases hx with ⟨hq,rfl⟩ | ⟨hq,hit,hx⟩
  · rcases hy with ⟨-,rfl⟩ | ⟨hn,-⟩
    · rfl
    · exact absurd hq hn
  · rcases hy with ⟨hn,-⟩ | ⟨-,hit',hy⟩
    · exact absurd hn hq
    · cases hx.symm.trans hy
      rfl

theorem Rechecked.none (hv : r.value = none) (h : Rechecked a now r x) : x = r := by
  rcases h with ⟨-,h⟩ | ⟨-,hit,h⟩
  · exact h
  · exact evaluate_none hv h

theorem Rechecked.kept (h : Rechecked a now r x) (hx : isAlarmedQuality x.quality = false) : x = r := by
  rcases h with ⟨-,h⟩ | ⟨hq,hit,h⟩
  · exact h
  · exact ((evaluate_yields hq).of_ok h).kept hx

/-- A second check finds what the first one did. -/
theorem Rechecked.again (hx : Rechecked a now r x) (hy : Rechecked a now x y) :
    isAlarmedQuality y.quality = isAlarmedQuality x.quality := by
  cases ha : isAlarmedQuality x.quality with
  | false =>
    obtain rfl := hx.kept ha
    rw [hx.det hy] at ha
    exact ha
  | true =>
    cases hb : isAlarmedQuality y.quality with
    | true => rfl
    | false =>
      rw [hy.kept hb] at hb
      exact hb.symm.trans ha

end Outcome

variable {D : DeviceImpl} {now : Int} {d d' : Data} {i : Nat} {wanted : List Nat} {methods : Nat → Method}

section Settle

/-- The ALARM of the last `set_state` stands. -/
def UserAlarm (d : Data) : Prop := d.deviceState = .alarm ∧ ¬d.alarmStateUser < d.alarmStateKernel

instance : Decidable (UserAlarm d) := inferInstanceAs (Decidable (_ ∧ _))

/-- The state that is computed. -/
def computedState (D : DeviceImpl) (d : Data) (readings : Nat → Reading) : DevState :=
  if UserAlarm d ∨ isAttQualityAlarmed D readings = true then .alarm else .on

theorem is_att_quality_alarmed {readings : Nat → Reading} : isAttQualityAlarmed D readings = true ↔
    ∃ i, i < D.attrs.length ∧ isAlarmedQuality (readings i).quality = true := by
  simp [isAttQualityAlarmed]

/-- What the end of `dev_state` does to the state and its time stamps. -/
structure SettledData (D : DeviceImpl) (now : Int) (d d' : Data) : Prop where
  state : d'.deviceState = computedState D d d'.readings
  user : d'.alarmStateUser = d.alarmStateUser
  kernel : d'.alarmStateKernel = d.alarmStateKernel ∧ (d'.deviceState = .alarm → d.deviceState = .alarm) ∨
    d'.alarmStateKernel = timeT now ∧ ¬UserAlarm d

theorem to_alarm_readings : (d.toAlarm now).readings = d.readings := by
  unfold Data.toAlarm
  split <;> rfl

theorem settle_hit (hon : d.deviceState = .on ∨ d.deviceState = .alarm)
    (hq : isAttQualityAlarmed D d.readings = true) : SettledData D now d (d.toAlarm now) := by
  have hstate : computedState D d (d.toAlarm now).readings = .alarm := by
    rw [to_alarm_readings,computedState,if_pos (Or.inr hq)]
  rcases hon with h | h
  · have hnot : ¬UserAlarm d := fun hu => nomatch h.symm.trans hu.1
    refine ⟨?_,?_,Or.inr ⟨?_,hnot⟩⟩
    · rw [hstate]
      simp [Data.toAlarm,h]
    · simp [Data.toAlarm,h]
    · simp [Data.toAlarm,h]
  · have he : d.toAlarm now = d := if_neg (not_not.mpr h)
    rw [he] at hstate ⊢
    exact ⟨h.trans hstate.symm,rfl,Or.inl ⟨rfl,id⟩⟩

theorem settle_quiet (hon : d.deviceState = .on ∨ d.deviceState = .alarm) :
    SettledData D now d (settle D now false d.backToOn) := by
  by_cases hu : UserAlarm d
  · have hback : d.backToOn = d := if_neg hu.2
    have hsettle : settle D now false d = d := if_neg (fun h => h.2 hu.1)
    rw [hback,hsettle]
    exact ⟨by rw [computedState,if_pos (Or.inl hu),hu.1],rfl,Or.inl ⟨rfl,id⟩⟩
  · have hback : d.backToOn = {d with deviceState := .on} := by
      by_cases hk : d.alarmStateUser < d.alarmStateKernel
      · exact if_pos hk
      · have hstate : d.deviceState = .on := hon.resolve_right (fun h => hu ⟨h,hk⟩)
        rw [Data.backToOn,if_neg hk,← hstate]
    rw [hback]
    cases hq : isAttQualityAlarmed D d.readings with
    | true => exact ⟨by simp [settle,Data.toAlarm,computedState,hq],by simp [settle,Data.toAlarm,hq],
        Or.inr ⟨by simp [settle,Data.toAlarm,hq],hu⟩⟩
    | false => exact ⟨by simp [settle,computedState,hq,hu],by simp [settle,hq],Or.inl (by simp [settle,hq])⟩

theorem settle_readings {hit : Bool} :
    (settle D now hit (if hit then d.toAlarm now else d.backToOn)).readings = d.readings := by
  have hback : d.backToOn.readings = d.readings := by
    unfold Data.backToOn
    split <;> rfl
  cases hit with
  | true => exact to_alarm_readings
  | false =>
    refine Eq.trans ?_ hback
    change (settle D now false d.backToOn).readings = _
    unfold settle
    split
    · split
      · exact to_alarm_readings
      · rfl
    · rfl

theorem settle_data {hit : Bool} (hon : d.deviceState = .on ∨ d.deviceState = .alarm)
    (hq : hit = true → isAttQualityAlarmed D d.readings = true) :
    SettledData D now d (settle D now hit (if hit then d.toAlarm now else d.backToOn)) := by
  cases hit with
  | true => exact settle_hit hon (hq rfl)
  | false => exact settle_quiet hon

end Settle

section DevState
variable {readings readings' : Nat → Reading}

theorem foldl_quality {β : Type} {f : (Nat → Reading) → β → Nat → Reading}
    (hf : ∀ readings x j, (f readings x j).quality = (readings j).quality) (xs : List β) (j : Nat) :
    (xs.foldl f readings j).quality = (readings j).quality := by
  induction xs generalizing readings with
  | nil => rfl
  | cons x xs ih => exact ih.trans (hf readings x j)

theorem update_quality {r : Reading} (h : r.quality = (readings i).quality) (j : Nat) :
    (Function.update readings i r j).quality = (readings j).quality := by
  by_cases hj : j = i
  · rw [hj,Function.update_self,h]
  · rw [Function.update_of_ne hj]

theorem free_read_quality {wantedDate : Nat → Bool} (readings : Nat → Reading) (i j : Nat) :
    (freeRead wantedDate readings i j).quality = (readings j).quality := by
  unfold freeRead
  split
  · exact update_quality (r := (readings i).deleteSeq) rfl j
  · rfl

theorem alarmed_congr (h : ∀ i, (readings i).quality = (readings' i).quality) :
    isAttQualityAlarmed D readings = isAttQualityAlarmed D readings' := by
  simp only [isAttQualityAlarmed,h]

/-- The state is computed from the attributes. -/
def Computes (D : DeviceImpl) (d : Data) : Prop :=
  ¬(d.deviceState ≠ .fault ∧ D.forceAlarmState = true) ∧ (d.deviceState = .on ∨ d.deviceState = .alarm)

/-- What `dev_state` leaves when it computes the state: an attribute of the list may be checked again,
one that was not in it has been read and checked. -/
structure Computed (D : DeviceImpl) (now : Int) (wanted : List Nat) (methods : Nat → Method)
    (d d' : Data) : Prop where
  asked : ∀ i ∈ alarmList D, i ∈ wanted → ∀ a, D.attrs[i]? = some a →
    ∃ x, (x = d.readings i ∨ Rechecked a now (d.readings i) x) ∧ (d'.readings i).quality = x.quality
  own : ∀ i ∈ ownList D wanted, ∀ a, D.attrs[i]? = some a →
    ∃ x, Rechecked a now (readForState a (methods i) (d.readings i)).2.2 x ∧
      (d'.readings i).quality = x.quality
  others : ∀ i, i ∉ alarmList D → (d'.readings i).quality = (d.readings i).quality
  settled : SettledData D now d d'

theorem dev_state_kept (h : ¬Computes D d) :
    devState D now wanted methods d =
      .ok (some (if d.deviceState ≠ .fault ∧ D.forceAlarmState = true then .alarm else d.deviceState),d) := by
  unfold devState
  split
  · rfl
  · rename_i hf
    rw [if_neg (fun hon => h ⟨hf,hon⟩)]

theorem dev_state_computes (h : Computes D d)
    (hgo : ∀ i ∈ ownList D wanted, ∀ a, D.attrs[i]? = some a →
      (readForState a (methods i) (d.readings i)).1 = true) :
    Yields (fun p => p.1 = some p.2.deviceState ∧ Computed D now wanted methods d p.2)
      (Stopped D now (alarmList D) (stateReads D methods (ownList D wanted) d.readings).2.2)
      (devState D now wanted methods d) := by
  obtain ⟨hforced,hon⟩ := h
  obtain ⟨hall,hread,hothers⟩ := @own_reads D d.readings (ownList D wanted) methods visits_ownList
  unfold devState
  rw [if_neg hforced,if_pos hon]
  simp only []
  split
  · change Yields _ _ (if (stateReads D methods (ownList D wanted) d.readings).1 = true then _ else _)
    rw [if_pos (hall.mpr hgo)]
    refine (check_alarms visits_alarmList).bind (fun p hp => ⟨rfl,?_⟩)
    generalize hr : List.foldl _ p.2 _ = readings
    have hquality : ∀ i, (readings i).quality = (p.2 i).quality :=
      fun i => hr ▸ foldl_quality free_read_quality _ i
    have hhit : p.1 = true → isAttQualityAlarmed D readings = true := by
      intro h
      obtain ⟨i,hi,hq⟩ := hp.hit.mp h
      obtain ⟨a,ha,-⟩ := mem_alarmList.mp hi
      exact is_att_quality_alarmed.mpr ⟨i,(List.getElem?_eq_some_iff.mp ha).1,by rwa [hquality]⟩
    have hleft := @settle_readings D now {d with readings := readings} p.1
    obtain ⟨hstate,huser,hkernel⟩ := @settle_data D now {d with readings := readings} p.1 hon hhit
    refine ⟨fun i hi hw a ha => ?_,fun i hi a ha => ?_,fun i hi => ?_,hstate,huser,hkernel⟩
    · refine ⟨p.2 i,Or.inr ?_,?_⟩
      · rw [← hothers i (fun h => (mem_ownList.mp h).2 hw)]
        exact hp.each i hi a ha
      · exact (congrArg (fun r => (r i).quality) hleft).trans (hquality i)
    · refine ⟨p.2 i,?_,?_⟩
      · rw [← hread (hall.mpr hgo) i hi a ha]
        exact hp.each i (mem_ownList.mp hi).1 a ha
      · exact (congrArg (fun r => (r i).quality) hleft).trans (hquality i)
    · have hkept : p.2 i = d.readings i :=
        (hp.others i hi).trans (hothers i (fun h => hi (mem_ownList.mp h).1))
      exact (congrArg (fun r => (r i).quality) hleft).trans (hkept ▸ hquality i)
  · rename_i hlist
    have hnone : ownList D wanted = [] := not_not.mp hlist
    have hleft := @settle_readings D now d false
    refine ⟨rfl,fun i hi hw a ha => ⟨d.readings i,Or.inl rfl,?_⟩,fun i hi => ?_,fun i hi => ?_,
      settle_quiet hon⟩
    · exact congrArg (fun r => (r i).quality) hleft
    · rw [hnone] at hi
      cases hi
    · exact congrArg (fun r => (r i).quality) hleft

end DevState

end CppTango.Device.Alarm
