import CppTango.Device.StatePasses

namespace CppTango.Device.Alarm

open CppTango.Lib

section Ready
variable (a : Attribute) (m : Method) (r : Reading)

/-- A method that returns to the reading pass for an attribute with alarms has set a value, or left
a quality that keeps the check from the levels. -/
def ListReady : Prop :=
  m.isAllowed = true → m.ends = .returns → a.isAlarmed = true → Covered a (m.after a r)

/-- So it is with what a refused or failed reading of that pass leaves to the state. -/
def LeftReady : Prop :=
  (m.isAllowed = false → Covered a r) ∧
    (m.isAllowed = true → m.ends ≠ .returns → Covered a (m.after a r))

/-- In `dev_state` a refused reading leaves no value, nor does a failed one, which keeps its quality
if there was a value. -/
structure OwnReady : Prop where
  refused : m.isAllowed = false → Quiet a r
  failed : m.isAllowed = true → m.ends = .devFailed → (m.after a r).value ≠ none → Quiet a (m.after a r)
  returned : m.isAllowed = true → m.ends = .returns → (m.after a r).value ≠ none →
    Covered a (m.after a r)

end Ready

section Conditions
variable (D : DeviceImpl)

/-- `dev_state` comes to its check of the alarms. -/
def ChecksAlarms (methods : Nat → Method) (wanted : List Nat) (d : Data) : Prop :=
  ¬(d.deviceState ≠ .fault ∧ D.forceAlarmState = true) ∧
    (d.deviceState = .on ∨ d.deviceState = .alarm) ∧ ownList D wanted ≠ [] ∧
    ∀ i ∈ ownList D wanted, (methods i).isAllowed = true → (methods i).ends ≠ .other

def StateReady (methods : Nat → Method) (wanted : List Nat) (d : Data) : Prop :=
  ChecksAlarms D methods wanted d → ∀ i ∈ ownList D wanted, ∀ a, D.attrs[i]? = some a →
    OwnReady a (methods i) (d.readings i)

/-- The readings of the list; what the last one of an attribute leaves is checked with the state. -/
def PassReady (now : Int) (checked : Prop) : List (Nat × Method) → (Nat → Reading) → Prop :=
  PassAll D now (fun i a m r later =>
    ListReady a m r ∧ (checked → i ∈ alarmList D → i ∉ later → LeftReady a m r))

def CallReady (d : Data) : Call → Prop
  | .readAttributes _ now wanted none => PassReady D now False wanted d.readings
  | .readAttributes _ now wanted (some methods) =>
    PassReady D now (ChecksAlarms D methods (readList D wanted) d) wanted d.readings ∧
      StateReady D methods (readList D wanted) d
  | .devState _ methods => StateReady D methods [] d
  | .setState _ _ => True

/-- Every call of a run is ready where it starts. -/
def AllReady : Data → List Call → Prop
  | _,[] => True
  | d,c :: cs => CallReady D d c ∧ ∀ d', step D d c = .ok d' → AllReady d' cs

end Conditions

variable {D : DeviceImpl} {a : Attribute} {m : Method} {r : Reading} {now : Int} {d : Data}
  {wanted : List Nat} {methods : Nat → Method}

section State

/-- Without its value an attribute is quiet if it was before. -/
theorem quiet_congr {r' : Reading} (h : Quiet a r) (hq : r'.quality = r.quality) : Quiet a r' := by
  unfold Quiet evaluatesLevel at *
  rwa [hq]

/-- What `dev_state` leaves of an attribute it read itself. -/
theorem own_covered (h : OwnReady a m r) (hgo : m.isAllowed = true → m.ends ≠ .other) :
    Covered a (readForState a m r).2.2 := by
  cases ha : m.isAllowed with
  | false =>
    refine Or.inl (quiet_congr (h.refused ha) ?_)
    simp [readForState,ha,Reading.resetValue]
  | true =>
    have hq := @own_quality a m r ha (hgo ha)
    by_cases hv : (m.after a r).value = none
    · rw [if_pos hv] at hq
      exact Or.inl (Or.inl hq)
    · rw [if_neg hv] at hq
      cases he : m.ends with
      | returns =>
        rw [own_returned ha he hv]
        exact h.returned ha he hv
      | devFailed => exact Or.inl (quiet_congr (h.failed ha he hv) hq)
      | other => exact absurd he (hgo ha)

/-- After its own readings no level is evaluated without the value. -/
theorem own_reads_covered (hr : StateReady D methods wanted d)
    (hw : ChecksAlarms D methods wanted d →
      ∀ i ∈ alarmList D, i ∈ wanted → ∀ a, D.attrs[i]? = some a → Covered a (d.readings i))
    (hc : ChecksAlarms D methods wanted d)
    (hgo : (stateReads D methods (ownList D wanted) d.readings).1 = true) :
    ¬Stopped D now (alarmList D) (stateReads D methods (ownList D wanted) d.readings).2.2 .noValue := by
  rintro ⟨i,hi,a,ha,hq,he⟩
  have hbad := (evaluate_yields hq).of_error he rfl
  obtain ⟨hall,hread,hothers⟩ := @own_reads D d.readings (ownList D wanted) methods visits_ownList
  by_cases hown : i ∈ ownList D wanted
  · rw [hread hgo i hown a ha] at hbad
    exact hbad (own_covered (hr hc i hown a ha) (own_goes_on.mp (hall.mp hgo i hown a ha)))
  · rw [hothers i hown] at hbad
    have hwanted : i ∈ wanted := by_contra (fun hn => hown (mem_ownList.mpr ⟨hi,hn⟩))
    exact hbad (hw hc i hi hwanted a ha)

theorem goes_on_iff (hgo : (stateReads D methods (ownList D wanted) d.readings).1 = true) :
    ∀ i ∈ ownList D wanted, (methods i).isAllowed = true → (methods i).ends ≠ .other := by
  intro i hi
  obtain ⟨a,ha⟩ := visits_ownList.present i hi
  exact own_goes_on.mp ((own_reads visits_ownList).goesOn.mp hgo i hi a ha)

theorem dev_state_safe (hr : StateReady D methods wanted d)
    (hw : ChecksAlarms D methods wanted d →
      ∀ i ∈ alarmList D, i ∈ wanted → ∀ a, D.attrs[i]? = some a → Covered a (d.readings i)) :
    Yields (fun _ => True) (fun e => e ≠ .noValue) (devState D now wanted methods d) := by
  unfold devState
  split
  · trivial
  · rename_i hforced
    split
    · rename_i hon
      simp only []
      split
      · rename_i hlist
        change Yields _ _ (if (stateReads D methods (ownList D wanted) d.readings).1 = true then _ else _)
        split
        · rename_i hgo
          have hc : ChecksAlarms D methods wanted d := ⟨hforced,hon,hlist,goes_on_iff hgo⟩
          refine Yields.bind ((check_alarms visits_alarmList).imp (fun _ _ => trivial) (fun e he h => ?_))
            (fun _ _ => trivial)
          exact own_reads_covered hr hw hc hgo (h ▸ he)
        · trivial
      · trivial
    · trivial

end State

section Pass
variable {readings : Nat → Reading} {checked : Prop} {list : List (Nat × Method)} {i : Nat}

/-- What the reading pass does for the check of the alarms behind it. -/
theorem wanted_yields (h : ListReady a m r) :
    Yields (fun p => a.isAlarmed = true → LeftReady a m r → Covered a p.2) (fun e => e ≠ .noValue)
      (readWanted a now m r) := by
  unfold readWanted
  cases ha : m.isAllowed with
  | false =>
    rw [if_pos rfl]
    exact fun _ hl => hl.1 ha
  | true =>
    rw [if_neg Bool.noConfusion]
    split
    · rename_i he
      exact fun _ hl => hl.2 ha he
    · rename_i he
      have hcov : a.isAlarmed = true → Covered a (m.after a r) := h ha (not_not.mp he)
      split
      · rename_i hc
        have hev : Yields (Settled (m.after a r)) (fun e => e ≠ .noValue)
            (evaluateAlarm a now (m.after a r)) :=
          (evaluate_yields hc.2).imp (fun _ h => h) (fun e he h => he h (hcov hc.1))
        exact hev.bind (fun p hp _ _ => (hcov hc.1).kept hp hc.2)
      · exact fun hal _ => hcov hal

theorem ready_pass (h : PassReady D now checked list readings) :
    Yields (fun p => (∀ i, i ∉ readList D list → p.2 i = readings i) ∧
        (checked → ∀ i ∈ alarmList D, i ∈ readList D list → ∀ a, D.attrs[i]? = some a → Covered a (p.2 i)))
      (fun e => e ≠ .noValue) (readPass D now list readings) := by
  refine (pass_yields h).imp (fun p hp => ⟨hp.others,fun hc i hi hmem a ha => ?_⟩) ?_
  · obtain ⟨m,r,failed,later,-,⟨hready,hleft⟩,hlast,hread⟩ := hp.read i hmem a ha
    obtain ⟨b,hb,hal,-⟩ := mem_alarmList.mp hi
    cases ha.symm.trans hb
    exact (wanted_yields hready).of_ok hread hal (hleft hc hi hlast)
  · rintro e ⟨i,a,m,r,later,⟨hready,-⟩,he⟩
    exact (wanted_yields hready).of_error he

end Pass

section Runs
variable {c : Call} {cs : List Call}

/-- The state that is read with a list finds every value there. -/
theorem read_state_safe {list : List (Nat × Method)} {readings : Nat → Reading}
    (hr : StateReady D methods (readList D list) d)
    (hothers : ∀ i, i ∉ readList D list → readings i = d.readings i)
    (hc : ChecksAlarms D methods (readList D list) d →
      ∀ i ∈ alarmList D, i ∈ readList D list → ∀ a, D.attrs[i]? = some a → Covered a (readings i)) :
    Yields (fun _ => True) (fun e => e ≠ .noValue)
      (devState D now (readList D list) methods {d with readings := (writePass D list readings).2}) := by
  refine dev_state_safe (fun h i hi a ha => ?_) (fun h i hi hmem a ha => ?_)
  · obtain ⟨hal,hnot⟩ := mem_ownList.mp hi
    change OwnReady a (methods i) ((writePass D list readings).2 i)
    rw [write_pass_others (readable_of_alarmed hal),hothers i hnot]
    exact hr h i hi a ha
  · change Covered a ((writePass D list readings).2 i)
    rw [write_pass_others (readable_of_alarmed hi)]
    exact hc h i hi hmem a ha

theorem read_attributes_safe {idl : Nat} {list : List (Nat × Method)} {state : Option (Nat → Method)}
    (h : CallReady D d (.readAttributes idl now list state)) :
    Yields (fun _ => True) (fun e => e ≠ .noValue) (readAttributes D idl now list state d) := by
  unfold readAttributes
  cases state with
  | none => exact (ready_pass h).bind (fun _ _ => trivial)
  | some methods =>
    obtain ⟨hpass,hstate⟩ := h
    exact (ready_pass hpass).bind (fun p hp =>
      (read_state_safe hstate hp.1 hp.2).bind (fun _ _ => trivial))

theorem call_safe (h : CallReady D d c) : Yields (fun _ => True) (fun e => e ≠ .noValue) (step D d c) := by
  cases c with
  | readAttributes idl now list state => exact (read_attributes_safe h).map
  | devState now methods => exact (dev_state_safe h (fun _ i _ hi => absurd hi List.not_mem_nil)).map
  | setState now newState => trivial

theorem value_there (h : AllReady D d cs) : cs.foldlM (step D) d ≠ .error .noValue := by
  induction cs generalizing d with
  | nil => exact fun he => nomatch he
  | cons c cs ih =>
    rw [List.foldlM_cons]
    cases hs : step D d c with
    | error e =>
      intro he
      cases he
      exact (call_safe h.1).of_error hs rfl
    | ok d' => exact ih (h.2 d' hs)

/-- An attribute with `min_alarm`, -/
def thermometer : DeviceImpl where
  attrs := [{
    name := "Temperature"
    dataType := .int .short
    dataFormat := .scalar
    writable := .read
    isFwd := false
    alarmConf := fun f => f = .minLevel
    minAlarm := 0
    maxAlarm := 0
    minWarning := 0
    maxWarning := 0
    written := none}]
  forceAlarmState := false

def started : Data := ⟨fun _ => ⟨none,0,.valid,fun _ => false⟩,.on,0,0⟩

def sets (ends : Ends) : Method := ⟨true,[.setValue (.ints [5])],ends⟩

/-- and a reading that forgets its value after one that set it and threw. -/
theorem forgotten_value_read : [Call.readAttributes 5 0 [(0,sets .devFailed)] none,
    .readAttributes 5 0 [(0,⟨true,[],.returns⟩)] none].foldlM (step thermometer) started =
      .error .noValue := rfl

theorem sets_covered (a : Attribute) (ha : thermometer.attrs[0]? = some a) (r : Reading) :
    Covered a ((sets .returns).after a r) := by
  cases ha
  exact Or.inr (fun he => nomatch he)

theorem forgotten_value_read_when : [Call.readAttributes 5 0 [(0,sets .returns)] none,
    .devState 0 (fun _ => sets .returns)].foldlM (step thermometer) started ≠ .error .noValue := by
  refine value_there ⟨⟨⟨fun _ _ _ => sets_covered _ rfl _,False.elim⟩,fun _ _ _ => trivial⟩,
    fun d' _ => ⟨fun _ i hi a ha => ?_,fun _ _ => trivial⟩⟩
  obtain ⟨hlt,-⟩ := List.getElem?_eq_some_iff.mp ha
  obtain rfl : i = 0 := Nat.lt_one_iff.mp hlt
  exact ⟨Bool.noConfusion,fun _ h => Ends.noConfusion h,fun _ _ _ => sets_covered a ha _⟩

end Runs

end CppTango.Device.Alarm
