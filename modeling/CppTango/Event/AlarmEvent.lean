import CppTango.Data

namespace CppTango.Event

/-- What one reading of an attribute gives. -/
structure Reading (α : Type) where
  except : Option DevErrorList
  quality : AttrQuality
  value : α
deriving DecidableEq, Repr

structure LastAttrValue (α : Type) where
  inited : Bool
  quality : AttrQuality
  value : Option α
  err : Bool
  except : DevErrorList
deriving DecidableEq, Repr

variable {α : Type}

/-- Before the first event. -/
def LastAttrValue.start : LastAttrValue α := ⟨false,.valid,none,false,[]⟩

/-- An error leaves quality and value as they are. -/
def LastAttrValue.store (prev : LastAttrValue α) (r : Reading α) : LastAttrValue α :=
  match r.except with
  | some e => {prev with except := e, err := true, inited := true}
  | none => {prev with quality := r.quality, value := some r.value, err := false, inited := true}

/-- The errors of two stacks are compared one by one, if there are as many. -/
def compareException : DevErrorList → DevErrorList → Bool
  | [],[] => true
  | e :: es,e' :: es' =>
    if e.severity ≠ e'.severity then false
    else if e.origin ≠ e'.origin then false
    else if e.reason ≠ e'.reason then false
    else if e.desc ≠ e'.desc then false
    else compareException es es'
  | _,_ => false

theorem compareException_iff {es es' : DevErrorList} : compareException es es' = true ↔ es = es' := by
  induction es generalizing es' with
  | nil => cases es' <;> simp [compareException]
  | cons e es ih =>
    cases es' with
    | nil => simp [compareException]
    | cons e' es' =>
      obtain ⟨reason,severity,desc,origin⟩ := e
      obtain ⟨reason',severity',desc',origin'⟩ := e'
      simp only [compareException,ne_eq,List.cons.injEq,DevError.mk.injEq]
      repeat' split
      all_goals simp_all

section Push

/-- Whether an alarm event is pushed for a reading, and the last value that is kept. -/
def detectAndPushAlarmEvent (r : Reading α) (prev : LastAttrValue α) : Bool × LastAttrValue α :=
  let first := !prev.inited
  let prev := if first then prev.store r else prev
  let isException := r.except.isSome
  let errorChanged := isException != prev.err ||
    (isException && !compareException (r.except.getD []) prev.except)
  let qualityHasChanged := prev.quality != r.quality
  let toOrFromAlarmOrWarning := prev.quality == .alarm || r.quality == .alarm ||
    prev.quality == .warning || r.quality == .warning
  let isAlarm := first || errorChanged || (!isException && qualityHasChanged && toOrFromAlarmOrWarning)
  (isAlarm,if isAlarm then prev.store r else prev)

/-- Successive calls for one attribute: which of them push, and the last value in the end. -/
def pushAlarmEvents (prev : LastAttrValue α) : List (Reading α) → List Bool × LastAttrValue α
  | [] => ([],prev)
  | r :: rs =>
    let (pushed,prev) := detectAndPushAlarmEvent r prev
    let (rest,prev) := pushAlarmEvents prev rs
    (pushed :: rest,prev)

end Push

section Classes

/-- What alarm events tell readings apart by. -/
inductive AlarmClass
  | error (errors : DevErrorList)
  | alarm
  | warning
  | other
deriving DecidableEq, Repr

def qualityClass : AttrQuality → AlarmClass
  | .alarm => .alarm
  | .warning => .warning
  | _ => .other

def Reading.alarmClass (r : Reading α) : AlarmClass := r.except.elim (qualityClass r.quality) .error

def LastAttrValue.alarmClass (prev : LastAttrValue α) : AlarmClass :=
  if prev.err then .error prev.except else qualityClass prev.quality

variable {r : Reading α} {prev : LastAttrValue α}

theorem store_alarmClass : (prev.store r).alarmClass = r.alarmClass := by
  unfold LastAttrValue.store Reading.alarmClass
  cases r.except <;> rfl

theorem store_inited : (prev.store r).inited = true := by
  unfold LastAttrValue.store
  cases r.except <;> rfl

/-- Qualities of one class are not told apart. -/
theorem quality_class_changed (q q' : AttrQuality) :
    (q != q' && (q == .alarm || q' == .alarm || q == .warning || q' == .warning)) =
      decide (qualityClass q ≠ qualityClass q') := by
  cases q <;> cases q' <;> rfl

theorem qualityClass_ne_error {q : AttrQuality} {e : DevErrorList} : qualityClass q ≠ .error e := by
  cases q <;> exact fun h => nomatch h

/-- After the first call, an event is pushed if the class is not that of the last one. -/
theorem alarm_pushed (h : prev.inited = true) :
    (detectAndPushAlarmEvent r prev).1 = decide (prev.alarmClass ≠ r.alarmClass) := by
  obtain ⟨inited,quality,value,err,except⟩ := prev
  obtain rfl : inited = true := h
  unfold detectAndPushAlarmEvent LastAttrValue.alarmClass Reading.alarmClass
  cases he : r.except with
  | none =>
    cases err with
    | false => exact quality_class_changed quality r.quality
    | true => exact (decide_eq_true qualityClass_ne_error.symm).symm
  | some e =>
    cases err with
    | false => exact (decide_eq_true qualityClass_ne_error).symm
    | true =>
      have hsame : compareException e except = decide (e = except) := by
        rw [Bool.eq_iff_iff,compareException_iff,decide_eq_true_iff]
      simp [hsame,eq_comm]

theorem alarm_first (h : prev.inited = false) : (detectAndPushAlarmEvent r prev).1 = true := by
  unfold detectAndPushAlarmEvent
  simp [h]

/-- Pushed or not, the class of the last event is that of the reading. -/
theorem alarm_tracked : (detectAndPushAlarmEvent r prev).2.alarmClass = r.alarmClass ∧
    (detectAndPushAlarmEvent r prev).2.inited = true := by
  cases hp : (detectAndPushAlarmEvent r prev).1 with
  | true =>
    have hstore : (detectAndPushAlarmEvent r prev).2 =
        (if !prev.inited then prev.store r else prev).store r := if_pos hp
    rw [hstore]
    exact ⟨store_alarmClass,store_inited⟩
  | false =>
    have hin : prev.inited = true := by
      by_contra hn
      exact Bool.noConfusion (hp.symm.trans (alarm_first (Bool.eq_false_iff.mpr hn)))
    have hkept : (detectAndPushAlarmEvent r prev).2 = prev := by
      have hkept : (detectAndPushAlarmEvent r prev).2 = if !prev.inited then prev.store r else prev :=
        if_neg (Bool.eq_false_iff.mp hp)
      rw [hkept,hin]
      rfl
    rw [alarm_pushed hin,decide_eq_false_iff_not,not_not] at hp
    rw [hkept]
    exact ⟨hp,hin⟩

/-- Which readings differ in class from the ones before. -/
def classChanges : List (Reading α) → List Bool
  | r :: r' :: rs => decide (r.alarmClass ≠ r'.alarmClass) :: classChanges (r' :: rs)
  | _ => []

theorem alarm_events_from (rs : List (Reading α)) (h : prev.inited = true) (hc : prev.alarmClass = r.alarmClass) :
    (pushAlarmEvents prev rs).1 = classChanges (r :: rs) ∧
      (pushAlarmEvents prev rs).2.alarmClass =
        ((r :: rs).getLast (List.cons_ne_nil r rs)).alarmClass := by
  induction rs generalizing prev r with
  | nil => exact ⟨rfl,hc⟩
  | cons r' rs ih =>
    obtain ⟨htracked,hin⟩ := @alarm_tracked α r' prev
    obtain ⟨hpushed,hlast⟩ := ih hin htracked
    refine ⟨?_,hlast⟩
    change (detectAndPushAlarmEvent r' prev).1 :: (pushAlarmEvents (detectAndPushAlarmEvent r' prev).2 rs).1 = _
    rw [hpushed,alarm_pushed h,hc,classChanges]

/-- The first reading is pushed, and then those of another class than the one before; the last event
always has the class of the last reading. -/
theorem alarm_events_track_class (h : prev.inited = false) (r : Reading α) (rs : List (Reading α)) :
    (pushAlarmEvents prev (r :: rs)).1 = true :: classChanges (r :: rs) ∧
      (pushAlarmEvents prev (r :: rs)).2.alarmClass =
        ((r :: rs).getLast (List.cons_ne_nil r rs)).alarmClass := by
  obtain ⟨htracked,hin⟩ := @alarm_tracked α r prev
  obtain ⟨hpushed,hlast⟩ := alarm_events_from rs hin htracked
  refine ⟨?_,hlast⟩
  change (detectAndPushAlarmEvent r prev).1 :: (pushAlarmEvents (detectAndPushAlarmEvent r prev).2 rs).1 = _
  rw [hpushed,alarm_first h]

theorem alarm_events_after_error :
    (pushAlarmEvents LastAttrValue.start
        [⟨none,.alarm,0⟩,⟨some [],.valid,0⟩,⟨none,.alarm,1⟩,⟨none,.alarm,2⟩]).1 =
        true :: classChanges [⟨none,.alarm,0⟩,⟨some [],.valid,0⟩,⟨none,.alarm,1⟩,⟨none,.alarm,2⟩] ∧
      (pushAlarmEvents LastAttrValue.start
          [⟨none,.alarm,0⟩,⟨some [],.valid,0⟩,⟨none,.alarm,1⟩,⟨none,.alarm,2⟩]).2.alarmClass =
        (⟨none,.alarm,2⟩ : Reading Nat).alarmClass :=
  alarm_events_track_class rfl _ _

end Classes

end CppTango.Event
