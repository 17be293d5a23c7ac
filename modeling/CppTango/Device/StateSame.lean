import CppTango.Device.StateHistory

namespace CppTango.Device.Alarm

open CppTango.Lib

variable {D : DeviceImpl} {now : Int} {idl : Nat} {d d₁ d' : Data} {methods : Nat → Method}
  {list : List (Nat × Method)} {state : Option DevState} {h : History}

/-- The `State` attribute alone is the `State` command. -/
theorem state_alone :
    readAttributes D idl now [] (some methods) d = devState D now [] methods d := by
  change (devState D now [] methods d >>= fun p =>
    pure (p.1,if p.1 = none then p.2 else {p.2 with readings := p.2.readings})) = _
  cases devState D now [] methods d with
  | error e => rfl
  | ok p =>
    change Except.ok (p.1,if p.1 = none then p.2 else p.2) = _
    rw [ite_self]

theorem computed_leaves (hl : ListLeft D now list h.data.readings d.readings)
    (hp : ∀ i ∈ alarmList D, ∀ a, D.attrs[i]? = some a → Plain a (methods i))
    (hm : ∀ p ∈ list, p.2 = methods p.1) (hc : Computed D now (readList D list) methods d d') :
    ∀ i ∈ alarmList D, ∀ a, D.attrs[i]? = some a →
      Leaves a now (methods i) (isAlarmedQuality (d'.readings i).quality) := by
  intro i hi a ha
  by_cases hr : i ∈ readList D list
  · obtain ⟨m,hlast,hleaves⟩ := asked_leaves hl hc i hi hr a ha
    exact hm (i,m) (mem_of_lastOf hlast) ▸ hleaves
  · obtain ⟨x,hx,hq⟩ := hc.own i (mem_ownList.mpr ⟨hi,hr⟩) a ha
    exact hq ▸ own_leaves (hp i hi a ha) hx

/-- An evaluation that stops with the state alone stops the list as well. -/
theorem alone_goes_on (hl : ListLeft D now list h.data.readings d.readings)
    (hp : ∀ i ∈ alarmList D, ∀ a, D.attrs[i]? = some a → Plain a (methods i))
    (hm : ∀ p ∈ list, p.2 = methods p.1) (hc : Computed D now (readList D list) methods d d')
    {e : Halt} :
    ¬Stopped D now (alarmList D) (stateReads D methods (ownList D []) h.data.readings).2.2 e := by
  rintro ⟨i,hi,a,ha,hq,he⟩
  have hplain : Plain a (methods i) := hp i hi a ha
  have hown : (stateReads D methods (ownList D []) h.data.readings).2.2 i =
      (readForState a (methods i) (h.data.readings i)).2.2 := by
    obtain ⟨hgo,hread,-⟩ := @own_reads D h.data.readings (ownList D []) methods visits_ownList
    refine hread (hgo.mpr (fun j hj b hb => ?_)) i (mem_ownList.mpr ⟨hi,List.not_mem_nil⟩) a ha
    exact own_goes_on.mpr (fun _ => (hp j (mem_ownList.mp hj).1 b hb).ends)
  rw [hown] at hq he
  have hleaves := computed_leaves hl hp hm hc i hi a ha
  by_cases hd : (methods i).delivers a
  · rw [own_delivers hplain hd] at hq he
    rw [Leaves,if_pos hd] at hleaves
    obtain ⟨x,⟨hinvalid,-⟩ | ⟨-,hit,hok⟩,-⟩ := hleaves
    · exact hq hinvalid
    · cases he.symm.trans hok
  · exact hq (own_fails hplain hd)

/-- The attributes of a list without alarms do not change to or from ALARM and WARNING. -/
def UnalarmedKept (D : DeviceImpl) (list : List (Nat × Method)) (d d' : Data) : Prop :=
  ∀ i ∈ readList D list, i ∉ alarmList D →
    isAlarmedQuality (d'.readings i).quality = isAlarmedQuality (d.readings i).quality

theorem alarmed_any_congr {readings readings' : Nat → Reading}
    (h : ∀ i a, D.attrs[i]? = some a →
      isAlarmedQuality (readings i).quality = isAlarmedQuality (readings' i).quality) :
    isAttQualityAlarmed D readings = isAttQualityAlarmed D readings' := by
  rw [Bool.eq_iff_iff,is_att_quality_alarmed,is_att_quality_alarmed]
  refine exists_congr (fun i => and_congr_right (fun hi => ?_))
  rw [h i _ (List.getElem?_eq_getElem hi)]

section Same
variable {readings : Nat → Reading}

/-- Alone and with a list, the same attributes end up with ALARM or WARNING. -/
theorem same_alarmed {d'' : Data} (hg : GoodReadings D h.data.readings h.good)
    (hl : ListLeft D now list h.data.readings readings)
    (hp : ∀ i ∈ alarmList D, ∀ a, D.attrs[i]? = some a → Plain a (methods i))
    (hm : ∀ p ∈ list, p.2 = methods p.1) (hkept : UnalarmedKept D list h.data d')
    (hc : Computed D now (readList D list) methods {h.data with readings := readings} d')
    (hc' : Computed D now [] methods h.data d'') :
    ∀ i a, D.attrs[i]? = some a →
      isAlarmedQuality (d'.readings i).quality = isAlarmedQuality (d''.readings i).quality := by
  intro i a ha
  by_cases hal : i ∈ alarmList D
  · have halone := @computed_leaves D now h.data d'' methods [] h nothing_left hp
      (fun p hp => absurd hp List.not_mem_nil) hc' i hal a ha
    exact (computed_leaves (d := {h.data with readings := readings}) hl hp hm hc i hal a ha).det halone
  · rw [hc'.others i hal]
    by_cases hr : i ∈ readList D list
    · exact hkept i hr hal
    · rw [hc.others i hal]
      change isAlarmedQuality (readings i).quality = _
      cases hread : isReadable a with
      | true =>
        have hout : i ∉ list.map Prod.fst :=
          fun hmem => hr (List.mem_filter.mpr ⟨hmem,by simpa [ha] using hread⟩)
        rw [hl.unread i hout]
      | false =>
        have hq := hg.write i a ha hread
        rw [hl.write i a ha hread hq,hq]

/-- The state with a list is the one `dev_state` gives alone. -/
theorem alone_ok (hg : GoodReadings D h.data.readings h.good)
    (hl : ListLeft D now list h.data.readings readings)
    (hp : ∀ i ∈ alarmList D, ∀ a, D.attrs[i]? = some a → Plain a (methods i))
    (hm : ∀ p ∈ list, p.2 = methods p.1) (hkept : UnalarmedKept D list h.data d')
    (hs : devState D now (readList D list) methods {h.data with readings := readings} = .ok (state,d')) :
    ∃ d'', devState D now [] methods h.data = .ok (state,d'') := by
  by_cases hcomp : Computes D h.data
  · have hgo {wanted : List Nat} (i : Nat) (hi : i ∈ ownList D wanted) (a : Attribute)
        (ha : D.attrs[i]? = some a) (r : Reading) : (readForState a (methods i) r).1 = true :=
      own_goes_on.mpr (fun _ => (hp i (mem_ownList.mp hi).1 a ha).ends)
    obtain ⟨hstate,hc⟩ := (@dev_state_computes D now {h.data with readings := readings}
      (readList D list) methods hcomp (fun i hi a ha => hgo i hi a ha _)).of_ok hs
    have halone := @dev_state_computes D now h.data [] methods hcomp (fun i hi a ha => hgo i hi a ha _)
    cases hd : devState D now [] methods h.data with
    | error e =>
      have hstop := halone.of_error hd
      exact absurd hstop (alone_goes_on (d := {h.data with readings := readings}) hl hp hm hc)
    | ok p =>
      obtain ⟨s,d''⟩ := p
      obtain ⟨hstate',hc'⟩ := halone.of_ok hd
      have hq := alarmed_any_congr (same_alarmed hg hl hp hm hkept hc hc')
      have hsame : d''.deviceState = d'.deviceState := by
        rw [hc'.settled.state,hc.settled.state,computedState,computedState,hq]
        rfl
      have hgiven : state = some d'.deviceState := hstate
      have hgiven' : s = some d''.deviceState := hstate'
      exact ⟨d'',by rw [hgiven,hgiven',hsame]⟩
  · rw [dev_state_kept hcomp]
    rw [@dev_state_kept D now {h.data with readings := readings} _ methods hcomp] at hs
    cases hs
    exact ⟨h.data,rfl⟩

end Same

/-- The state that a client expects of what it knows. -/
def expected (D : DeviceImpl) (good : Nat → Bool) : DevState :=
  if (List.range D.attrs.length).any good then .alarm else .on

theorem expected_of_good {good : Nat → Bool} (hg : GoodReadings D d.readings good) :
    expected D good = if isAttQualityAlarmed D d.readings = true then .alarm else .on := by
  have hany : (List.range D.attrs.length).any good = isAttQualityAlarmed D d.readings := by
    rw [Bool.eq_iff_iff,is_att_quality_alarmed,List.any_eq_true]
    simp only [List.mem_range]
    refine exists_congr (fun i => and_congr_right (fun hi => ?_))
    rw [hg.known i _ (List.getElem?_eq_getElem hi)]
  rw [expected,hany]

/-- The state that is read with a list: what it is read with, the last `set_state` and the readings
before decide it only as they should. -/
theorem state_same (hr : Reached D h) (ht : h.time ≤ now)
    (hp : CallPlain D h.data (.readAttributes idl now list (some methods)))
    (hs : readAttributes D idl now list (some methods) h.data = .ok (state,d')) :
    readAttributes D idl now [] (some methods) h.data = devState D now [] methods h.data ∧
      ((∀ p ∈ list, p.2 = methods p.1) → UnalarmedKept D list h.data d' →
        ∃ d'', devState D now [] methods h.data = .ok (state,d'')) ∧
      (h.lastSet = some .on → D.forceAlarmState = false → state = some (expected D
        (remember D (callReads D h.data (.readAttributes idl now list (some methods))) d'.readings
          h.good))) ∧
      (h.lastSet = some .alarm → state = some .alarm) := by
  obtain ⟨hlist,hplain⟩ := hp
  have hplain := hplain methods rfl
  obtain ⟨hgood,hstamped⟩ := reached_inv hr
  have hnext := (reached_inv hr).readState ht hlist hplain hs
  obtain ⟨p,d₁,hpass,hstate,hreply⟩ := state_read_ok hs
  have hleft := list_left hlist hpass
  obtain ⟨-,hc,hn⟩ := state_given (d := {h.data with readings := (writePass D list p.2).2}) hleft hplain hstate
  refine ⟨state_alone,fun hm hkept => ?_,fun hon hforce => ?_,fun halarm => ?_⟩
  · refine alone_ok hgood hleft hplain hm (fun i hi hal => ?_) hstate
    rw [← hreply.quality]
    exact hkept i hi hal
  · have hcomp : Computes D {h.data with readings := (writePass D list p.2).2} :=
      ⟨fun hf => Bool.noConfusion (hforce.symm.trans hf.2),hstamped.on_computes hon⟩
    obtain ⟨hgiven,hsettled⟩ := hc hcomp
    have hfree : ¬UserAlarm {h.data with readings := (writePass D list p.2).2} := hstamped.on_free hon
    have hexpected := expected_of_good hnext.good
    rw [callReads,hexpected,alarmed_congr hreply.quality,hgiven,hsettled.state,computedState]
    simp only [hfree,false_or]
  · obtain ⟨hdata,hk⟩ := hstamped.alarm halarm
    by_cases hcomp : Computes D {h.data with readings := (writePass D list p.2).2}
    · obtain ⟨hgiven,hsettled⟩ := hc hcomp
      have hu : UserAlarm {h.data with readings := (writePass D list p.2).2} := ⟨hdata,not_lt.mpr hk⟩
      rw [hgiven,hsettled.state,computedState,if_pos (Or.inl hu)]
    · rw [(hn hcomp).2]
      change some (if _ then _ else h.data.deviceState) = _
      rw [hdata,ite_self]

/-- An attribute without alarms: -/
def lamp : DeviceImpl where
  attrs := [{
    name := "Lamp"
    dataType := .int .short
    dataFormat := .scalar
    writable := .read
    isFwd := false
    alarmConf := fun _ => false
    minAlarm := 0
    maxAlarm := 0
    minWarning := 0
    maxWarning := 0
    written := none}]
  forceAlarmState := false

def switchedOn : Data := (⟨fun _ => .initial,.unknown,0,0⟩ : Data).setState 1000000000 .on

def fails : Method := ⟨true,[.setValueQuality (.ints [0]) .alarm],.returns⟩

/-- the state is ON alone, and ALARM beside the attribute that is found in ALARM. -/
theorem state_depends_on_list :
    (readAttributes lamp 5 2000000000 [] (some fun _ => fails) switchedOn).map Prod.fst = .ok (some .on) ∧
      (readAttributes lamp 5 2000000000 [(0,fails)] (some fun _ => fails) switchedOn).map Prod.fst =
        .ok (some .alarm) := ⟨rfl,rfl⟩

theorem switchedOn_reached :
    Reached lamp ⟨switchedOn,fun _ => false,some .on,1000000000⟩ := by
  have hstart : Reached lamp ⟨⟨fun _ => .initial,.unknown,0,0⟩,fun _ => false,none,1000000000⟩ :=
    .start .unknown 1000000000 (by decide)
  have hset := Reached.call (.setState 1000000000 .on) switchedOn hstart le_rfl trivial rfl
  have hgood : remember lamp (callReads lamp ⟨fun _ => .initial,.unknown,0,0⟩ (.setState 1000000000 .on))
      switchedOn.readings (fun _ => false) = fun _ => false := by
    funext i
    unfold remember
    cases lamp.attrs[i]? <;> rfl
  rwa [hgood] at hset

theorem lamp_plain : CallPlain lamp switchedOn
    (.readAttributes 5 2000000000 [(0,fails)] (some fun _ => fails)) := by
  refine ⟨⟨⟨⟨⟨rfl,by decide,Or.inl (by decide)⟩,fun hn => absurd (by decide) hn⟩,fun _ _ _ => trivial⟩,?_⟩,?_⟩
  · intro p hp a ha hw
    cases List.mem_singleton.mp hp
    cases ha
    cases hw
  · exact fun _ _ i hi => absurd hi List.not_mem_nil

theorem state_same_beside_lamp : ∃ d',
    readAttributes lamp 5 2000000000 [(0,fails)] (some fun _ => fails) switchedOn = .ok (some .alarm,d') ∧
      (some DevState.alarm = some (expected lamp
        (remember lamp (callReads lamp switchedOn (.readAttributes 5 2000000000 [(0,fails)] (some fun _ => fails)))
          d'.readings (fun _ => false)))) :=
  ⟨_,rfl,(state_same switchedOn_reached (by decide) lamp_plain rfl).2.2.1 rfl rfl⟩

end CppTango.Device.Alarm
