import CppTango.Event.ChangeRuns
import CppTango.Lib.Loops

namespace CppTango.Event

open CppTango.Lib CppTango.Device.Alarm

section Periods

/-- Milliseconds on the clock of the polling, which counts nanoseconds. -/
def ms (n : Int) : Int := n * 1000000

/-- Two per cent less, or a tenth of a second for the long periods. The product is exact for whole milliseconds. -/
def getMinimalEventReportingPeriod (pollingPeriod : Int) : Int :=
  if ms 5000 ≤ pollingPeriod then pollingPeriod - ms 100 else (pollingPeriod * 98 + 50) / 100

theorem minimal_nonneg {period : Int} (h : 0 ≤ period) : 0 ≤ getMinimalEventReportingPeriod (ms period) := by
  unfold getMinimalEventReportingPeriod ms
  split <;> omega

/-- A poll in each period is late enough. -/
theorem minimal_lt {period : Int} (h : 0 < period) : getMinimalEventReportingPeriod (ms period) < ms period := by
  unfold getMinimalEventReportingPeriod ms
  split <;> omega

end Periods

section Detect
variable {α : Type}

/-- What an attribute keeps for the periodic events. -/
structure Periodic where
  lastPeriodic : Int
  periodicCounter : Int
deriving DecidableEq, Repr

structure PeriodicEvent (α : Type) where
  counter : Int
  reading : Reading α

def Periodic.start : Periodic := ⟨0,0⟩

/-- `timeBefAttr` was taken before the attribute was read. -/
def detectAndPushPeriodicEvent (eventPeriod timeBefAttr : Int) (r : Reading α) (p : Periodic) :
    Option (PeriodicEvent α) × Periodic :=
  if getMinimalEventReportingPeriod (ms eventPeriod) < timeBefAttr - p.lastPeriodic then
    (some ⟨p.periodicCounter + 1,r⟩,⟨timeBefAttr,p.periodicCounter + 1⟩)
  else (none,p)

/-- What an attribute keeps for the archive events. -/
structure Archive where
  prev : LastAttrValue (List Int)
  archiveLastPeriodic : Int
  archiveLastEvent : Int
  archivePeriodicCounter : Int

structure ArchiveEvent where
  counter : Int
  deltas : Deltas
  forcedEvent : Bool
  qualityChange : Bool
  deltaEvent : Int
  reading : Reading (List Int)

def Archive.start : Archive := ⟨.start,0,0,0⟩

/-- The largest `int` is no period at all. -/
def periodless : Int := 2147483647

/-- The period has gone by, and there was an event before. -/
def periodChange (archivePeriod timeBefAttr : Int) (a : Archive) : Bool :=
  archivePeriod ≠ periodless &&
    (getMinimalEventReportingPeriod (ms archivePeriod) < timeBefAttr - a.archiveLastPeriodic && a.prev.inited)

variable (t : IntType) (rel abs : Criteria)

/-- What has changed since the last event; a period that has gone by is enough. -/
def detectArchive (period : Bool) (r : Reading (List Int)) (prev : LastAttrValue (List Int)) : Option Detected :=
  if period then some ⟨true,false,⟨0,0⟩⟩ else detectChange t rel abs r prev

def detectAndPushArchiveEvent (archivePeriod timeBefAttr : Int) (r : Reading (List Int)) (a : Archive) :
    Option (Option ArchiveEvent × Archive) := do
  let period := periodChange archivePeriod timeBefAttr a
  let (detected,a) ←
    if a.prev.inited then (detectArchive t rel abs period r a.prev).map (fun d => (d,a))
    else some (⟨true,false,⟨0,0⟩⟩,⟨a.prev.store r,timeBefAttr,timeBefAttr,a.archivePeriodicCounter⟩)
  let qualityChange := decide (r.except = none ∧ a.prev.quality ≠ r.quality)
  if detected.isChange || qualityChange then
    pure (some ⟨if period then a.archivePeriodicCounter + 1 else -1,detected.deltas,detected.forceChange,qualityChange,
        timeBefAttr - a.archiveLastEvent,r⟩,
      ⟨a.prev.store r,if period then timeBefAttr else a.archiveLastPeriodic,timeBefAttr,
        if period then a.archivePeriodicCounter + 1 else a.archivePeriodicCounter⟩)
  else pure (none,a)

end Detect

section Runs
variable {α : Type}

/-- Successive calls for one attribute: the events that are pushed with their times, and what is kept in the end. -/
def pushPeriodicEvents (eventPeriod : Int) (p : Periodic) :
    List (Int × Reading α) → List (Int × PeriodicEvent α) × Periodic
  | [] => ([],p)
  | (time,r) :: calls =>
    match detectAndPushPeriodicEvent eventPeriod time r p with
    | (event,p) =>
      (event.toList.map (fun e => (time,e)) ++ (pushPeriodicEvents eventPeriod p calls).1,
        (pushPeriodicEvents eventPeriod p calls).2)

variable (t : IntType) (rel abs : Criteria)

def pushArchiveEvents (archivePeriod : Int) (a : Archive) :
    List (Int × Reading (List Int)) → Option (List (Int × ArchiveEvent) × Archive)
  | [] => some ([],a)
  | (time,r) :: calls => do
    let (event,a) ← detectAndPushArchiveEvent t rel abs archivePeriod time r a
    let (events,a) ← pushArchiveEvents archivePeriod a calls
    pure (event.toList.map (fun e => (time,e)) ++ events,a)

end Runs

section Paced
variable {α : Type} {eventPeriod gap : Int} {p : Periodic}

/-- So many numbers from the first one on. -/
def numbered (first : Int) (n : Nat) : List Int := (List.range n).map (fun i : Nat => first + (i : Int))

theorem numbered_succ (first : Int) (n : Nat) : numbered first (n + 1) = first :: numbered (first + 1) n := by
  unfold numbered
  rw [List.range_succ_eq_map,List.map_cons,List.map_map]
  refine congrArg₂ List.cons (by simp) (List.map_congr_left fun i _ => ?_)
  simp only [Function.comp_apply,Nat.succ_eq_add_one,Nat.cast_add,Nat.cast_one]
  omega

/-- The times of the events, and their counters one by one. -/
theorem periodic_fires (eventPeriod : Int) (p : Periodic) (calls : List (Int × Reading α)) :
    (pushPeriodicEvents eventPeriod p calls).1.map Prod.fst =
        fires (getMinimalEventReportingPeriod (ms eventPeriod)) p.lastPeriodic (calls.map Prod.fst) ∧
      (pushPeriodicEvents eventPeriod p calls).1.map (fun e => e.2.counter) =
        numbered (p.periodicCounter + 1) (pushPeriodicEvents eventPeriod p calls).1.length := by
  induction calls generalizing p with
  | nil => exact ⟨rfl,rfl⟩
  | cons call calls ih =>
    obtain ⟨time,r⟩ := call
    rw [List.map_cons]
    by_cases hd : getMinimalEventReportingPeriod (ms eventPeriod) < time - p.lastPeriodic
    · obtain ⟨htimes,hcounters⟩ := ih ⟨time,p.periodicCounter + 1⟩
      have hone : detectAndPushPeriodicEvent eventPeriod time r p =
          (some ⟨p.periodicCounter + 1,r⟩,⟨time,p.periodicCounter + 1⟩) := if_pos hd
      rw [fires_late hd]
      simp only [pushPeriodicEvents,hone,Option.toList_some,List.map_cons,List.map_nil,List.singleton_append,
        List.length_cons]
      exact ⟨by rw [htimes],by rw [hcounters,numbered_succ]⟩
    · obtain ⟨htimes,hcounters⟩ := ih p
      have hone : detectAndPushPeriodicEvent eventPeriod time r p = (none,p) := if_neg hd
      rw [fires_early hd]
      simp only [pushPeriodicEvents,hone,Option.toList_none,List.map_nil,List.nil_append]
      exact ⟨htimes,hcounters⟩

/-- Periodic events are numbered, never more often than the period less its tolerance, and, where the attribute is read
at least every `gap`, at most that much later; when none is pushed none is due. They come with every reading if the
readings are no more often than the events. -/
theorem periodic_events_paced (h0 : 0 ≤ eventPeriod) {calls : List (Int × Reading α)}
    (h : Watched gap (calls.map Prod.fst)) :
    ((pushPeriodicEvents eventPeriod .start calls).1.map Prod.fst).IsChain (fun a b =>
        getMinimalEventReportingPeriod (ms eventPeriod) < b - a ∧
          b - a ≤ getMinimalEventReportingPeriod (ms eventPeriod) + gap) ∧
      (pushPeriodicEvents eventPeriod .start calls).1.map (fun e => e.2.counter) =
        numbered 1 (pushPeriodicEvents eventPeriod .start calls).1.length ∧
      (∀ e ∈ ((pushPeriodicEvents eventPeriod .start calls).1.map Prod.fst).getLast?,
        ∀ time ∈ (calls.map Prod.fst).getLast?, time - e ≤ getMinimalEventReportingPeriod (ms eventPeriod)) ∧
      ((0 :: calls.map Prod.fst).IsChain (fun a b => ms eventPeriod ≤ b - a) → 0 < eventPeriod →
        (pushPeriodicEvents eventPeriod .start calls).1.map Prod.fst = calls.map Prod.fst) := by
  obtain ⟨htimes,hcounters⟩ := periodic_fires eventPeriod .start calls
  obtain ⟨hchain,hlast⟩ := fires_watched (minimal_nonneg h0) h
  rw [htimes]
  refine ⟨hchain,hcounters,hlast,fun heach hpos => fires_each (heach.imp fun a b hab => ?_)⟩
  exact Int.lt_of_lt_of_le (minimal_lt hpos) hab

theorem sample_periodic : ((pushPeriodicEvents 1000 .start [(ms 5000,⟨none,.valid,5⟩),(ms 5990,⟨none,.valid,6⟩),
    (ms 6400,(⟨none,.valid,7⟩ : Reading Nat))]).1.map Prod.fst).IsChain (fun a b =>
      getMinimalEventReportingPeriod (ms 1000) < b - a ∧ b - a ≤ getMinimalEventReportingPeriod (ms 1000) + ms 1000) :=
  (periodic_events_paced (by decide) (by decide)).1

end Paced

section Archived
variable {t : IntType} {rel abs : Criteria} {archivePeriod gap time : Int} {r p c : Reading (List Int)}
  {a a' : Archive} {event : Option ArchiveEvent} {events : List (Int × ArchiveEvent)}
  {calls : List (Int × Reading (List Int))}

/-- An event as it follows from what was kept before, and what is kept after it. -/
structure Pushed (archivePeriod time : Int) (r : Reading (List Int)) (a : Archive) (e : ArchiveEvent)
    (a' : Archive) : Prop where
  reading : e.reading = r
  delta : e.deltaEvent = time - a.archiveLastEvent
  prev : a'.prev = a.prev.store r
  lastEvent : a'.archiveLastEvent = time
  periodic : periodChange archivePeriod time a = true → e.counter = a.archivePeriodicCounter + 1 ∧
    a'.archivePeriodicCounter = a.archivePeriodicCounter + 1 ∧ a'.archiveLastPeriodic = time
  other : periodChange archivePeriod time a = false → e.counter = -1 ∧
    a'.archivePeriodicCounter = a.archivePeriodicCounter ∧ a'.archiveLastPeriodic = a.archiveLastPeriodic

/-- One call: the reading is pushed and kept, or it is behind none and no period has gone by. -/
theorem archive_step (hd : Describes a.prev p) (hin : a.prev.inited = true)
    (h : detectAndPushArchiveEvent t rel abs archivePeriod time r a = some (event,a')) :
    (∃ e, event = some e ∧ Pushed archivePeriod time r a e a') ∨
      event = none ∧ a' = a ∧ Fresh t rel abs p r ∧ periodChange archivePeriod time a = false := by
  unfold detectAndPushArchiveEvent at h
  rw [if_pos hin] at h
  obtain ⟨⟨detected,a₁⟩,hdet,h⟩ := Option.bind_eq_some_iff.mp h
  obtain ⟨d,hfound,he⟩ := Option.map_eq_some_iff.mp hdet
  cases he
  simp only [] at h
  cases hperiod : periodChange archivePeriod time a with
  | true =>
    rw [hperiod] at h hfound
    cases hfound
    cases h
    exact .inl ⟨_,rfl,rfl,rfl,rfl,rfl,fun _ => ⟨rfl,rfl,rfl⟩,fun hno => by rw [hperiod] at hno; cases hno⟩
  | false =>
    rw [hperiod] at h hfound
    split at h
    next =>
      cases h
      exact .inl ⟨_,rfl,rfl,rfl,rfl,rfl,fun hno => (by rw [hperiod] at hno; cases hno),fun _ => ⟨rfl,rfl,rfl⟩⟩
    next hno =>
      cases h
      simp only [Bool.or_eq_true,decide_eq_true_iff,not_or,Bool.not_eq_true,not_and,not_not] at hno
      exact .inr ⟨rfl,rfl,unchanged_fresh hd hin hfound hno.1 hno.2,rfl⟩

/-- The first call pushes, and starts the period. -/
theorem archive_first (hin : a.prev.inited = false)
    (h : detectAndPushArchiveEvent t rel abs archivePeriod time r a = some (event,a')) :
    ∃ e, event = some e ∧ e.reading = r ∧ e.deltaEvent = 0 ∧ e.counter = -1 ∧ Describes a'.prev r ∧
      a'.prev.inited = true ∧ a'.archiveLastEvent = time ∧ a'.archiveLastPeriodic = time ∧
      a'.archivePeriodicCounter = a.archivePeriodicCounter := by
  have hperiod : periodChange archivePeriod time a = false := by simp [periodChange,hin]
  unfold detectAndPushArchiveEvent at h
  rw [if_neg (by rw [hin]; exact Bool.false_ne_true),hperiod] at h
  cases h
  exact ⟨_,rfl,rfl,Int.sub_self _,rfl,store_describes.1,store_describes.2,rfl,rfl,rfl⟩

/-- A run from a last value that describes `p`, pushed before or with the reading `c`. -/
theorem archive_run (hd : Describes a.prev p) (hin : a.prev.inited = true) (hf : Fresh t rel abs p c)
    (h : pushArchiveEvents t rel abs archivePeriod a calls = some (events,a')) :
    Describes a'.prev ((events.getLast?.map (fun e => e.2.reading)).getD p) ∧
      Fresh t rel abs ((events.getLast?.map (fun e => e.2.reading)).getD p)
        ((calls.getLast?.map Prod.snd).getD c) := by
  induction calls generalizing a p c events with
  | nil =>
    cases h
    exact ⟨hd,hf⟩
  | cons call calls ih =>
    obtain ⟨time,r⟩ := call
    obtain ⟨⟨event,a₁⟩,hone,h⟩ := Option.bind_eq_some_iff.mp h
    obtain ⟨⟨rest,a₂⟩,hrest,h⟩ := Option.bind_eq_some_iff.mp h
    cases h
    have hlast : (((time,r) :: calls).getLast?.map Prod.snd).getD c = (calls.getLast?.map Prod.snd).getD r := by
      rw [List.getLast?_cons]
      cases calls.getLast? <;> rfl
    rw [hlast]
    rcases archive_step hd hin hone with ⟨e,rfl,hpushed⟩ | ⟨rfl,rfl,hfresh,_⟩
    · have hstore : Describes a₁.prev r ∧ a₁.prev.inited = true := hpushed.prev ▸ store_describes
      obtain ⟨hd',hf'⟩ := ih hstore.1 hstore.2 (.current rfl) hrest
      have hevents : ((((some e).toList.map (fun e => (time,e))) ++ rest).getLast?.map (fun e => e.2.reading)).getD p =
          (rest.getLast?.map (fun e => e.2.reading)).getD r := by
        change (((time,e) :: rest).getLast?.map (fun e => e.2.reading)).getD p = _
        rw [List.getLast?_cons,← hpushed.reading]
        cases rest.getLast? <;> rfl
      rw [hevents]
      exact ⟨hd',hf'⟩
    · exact ih hd hin hfresh hrest

/-- A change within the criterion, and a second reading of the same value when the period has gone by. -/
def sampleCalls : List (Int × Reading (List Int)) :=
  [(0,⟨none,.valid,[5]⟩),(ms 500,⟨none,.valid,[7]⟩),(ms 1000,⟨none,.valid,[7]⟩)]

/-- The events of the period; the others have no number. -/
def ofPeriod (events : List (Int × ArchiveEvent)) : List (Int × ArchiveEvent) :=
  events.filter (fun e => e.2.counter ≠ -1)

/-- The time between each event and the one before. -/
def gaps : Int → List Int → List Int
  | _,[] => []
  | last,time :: times => (time - last) :: gaps time times

theorem periodChange_iff (hp : archivePeriod ≠ periodless) (hin : a.prev.inited = true) :
    periodChange archivePeriod time a = true ↔
      getMinimalEventReportingPeriod (ms archivePeriod) < time - a.archiveLastPeriodic := by
  simp [periodChange,hp,hin]

/-- The events of the period come as its times fire, and are numbered; each event tells the time since the last one. -/
theorem archive_fires (hp : archivePeriod ≠ periodless) (hd : Describes a.prev p) (hin : a.prev.inited = true)
    (h0 : 0 ≤ a.archivePeriodicCounter)
    (h : pushArchiveEvents t rel abs archivePeriod a calls = some (events,a')) :
    (ofPeriod events).map Prod.fst =
        fires (getMinimalEventReportingPeriod (ms archivePeriod)) a.archiveLastPeriodic (calls.map Prod.fst) ∧
      (ofPeriod events).map (fun e => e.2.counter) =
        numbered (a.archivePeriodicCounter + 1) (ofPeriod events).length ∧
      events.map (fun e => e.2.deltaEvent) = gaps a.archiveLastEvent (events.map Prod.fst) := by
  induction calls generalizing a p events with
  | nil =>
    cases h
    exact ⟨rfl,rfl,rfl⟩
  | cons call calls ih =>
    obtain ⟨time,r⟩ := call
    obtain ⟨⟨event,a₁⟩,hone,h⟩ := Option.bind_eq_some_iff.mp h
    obtain ⟨⟨rest,a₂⟩,hrest,h⟩ := Option.bind_eq_some_iff.mp h
    cases h
    rw [List.map_cons]
    rcases archive_step hd hin hone with ⟨e,rfl,hpushed⟩ | ⟨rfl,rfl,_,hno⟩
    · have hstore : Describes a₁.prev r ∧ a₁.prev.inited = true := hpushed.prev ▸ store_describes
      change (ofPeriod ((time,e) :: rest)).map Prod.fst = _ ∧ (ofPeriod ((time,e) :: rest)).map _ =
        numbered _ (ofPeriod ((time,e) :: rest)).length ∧ ((time,e) :: rest).map _ = gaps _ (((time,e) :: rest).map _)
      cases hperiod : periodChange archivePeriod time a with
      | true =>
        obtain ⟨hcounter,hctr,hlast⟩ := hpushed.periodic hperiod
        obtain ⟨htimes,hnumbers,hgaps⟩ := ih hstore.1 hstore.2 (by omega) hrest
        have hdue : ofPeriod ((time,e) :: rest) = (time,e) :: ofPeriod rest :=
          List.filter_cons_of_pos (by rw [hcounter]; exact decide_eq_true (by omega))
        rw [hdue,fires_late ((periodChange_iff hp hin).mp hperiod)]
        simp only [List.map_cons,List.length_cons,gaps,numbered_succ,htimes,hnumbers,hgaps,hlast,hctr,hcounter,
          hpushed.delta,hpushed.lastEvent,and_self]
      | false =>
        obtain ⟨hcounter,hctr,hlast⟩ := hpushed.other hperiod
        obtain ⟨htimes,hnumbers,hgaps⟩ := ih hstore.1 hstore.2 (by omega) hrest
        have hearly : ¬ getMinimalEventReportingPeriod (ms archivePeriod) < time - a.archiveLastPeriodic := by
          rw [← periodChange_iff hp hin,hperiod]
          exact Bool.false_ne_true
        have hdue : ofPeriod ((time,e) :: rest) = ofPeriod rest :=
          List.filter_cons_of_neg (by simp [hcounter])
        rw [hdue,fires_early hearly]
        refine ⟨hlast ▸ htimes,hctr ▸ hnumbers,?_⟩
        simp only [List.map_cons,gaps,hgaps,hpushed.delta,hpushed.lastEvent]
    · have hearly : ¬ getMinimalEventReportingPeriod (ms archivePeriod) < time - a₁.archiveLastPeriodic := by
        rw [← periodChange_iff hp hin,hno]
        exact Bool.false_ne_true
      rw [fires_early hearly]
      exact ih hd hin h0 hrest

/-- Where an archive period is configured and the attribute is read at least every `gap`, the events of the period are
numbered and come in time and not too often, counted from the first event of all, whatever other events there are in
between. Each event tells the time since the event before. -/
theorem archive_events_paced (hp : archivePeriod ≠ periodless) (h0 : 0 ≤ archivePeriod)
    (hw : Watched gap (((time,r) :: calls).map Prod.fst))
    (h : pushArchiveEvents t rel abs archivePeriod .start ((time,r) :: calls) = some (events,a')) :
    (time :: (ofPeriod events).map Prod.fst).IsChain (fun a b =>
        getMinimalEventReportingPeriod (ms archivePeriod) < b - a ∧
          b - a ≤ getMinimalEventReportingPeriod (ms archivePeriod) + gap) ∧
      (((time,r) :: calls).map Prod.fst).getLast (List.cons_ne_nil _ _) -
          (time :: (ofPeriod events).map Prod.fst).getLast (List.cons_ne_nil _ _) ≤
        getMinimalEventReportingPeriod (ms archivePeriod) ∧
      (ofPeriod events).map (fun e => e.2.counter) = numbered 1 (ofPeriod events).length ∧
      events.map (fun e => e.2.deltaEvent) = gaps time (events.map Prod.fst) := by
  have hrun : ∃ event a₁ rest, detectAndPushArchiveEvent t rel abs archivePeriod time r .start = some (event,a₁) ∧
      pushArchiveEvents t rel abs archivePeriod a₁ calls = some (rest,a') ∧
      events = event.toList.map (fun e => (time,e)) ++ rest := by
    rw [pushArchiveEvents] at h
    obtain ⟨⟨event,a₁⟩,hone,h⟩ := Option.bind_eq_some_iff.mp h
    obtain ⟨⟨rest,a₂⟩,hrest,h⟩ := Option.bind_eq_some_iff.mp h
    cases h
    exact ⟨event,a₁,rest,hone,hrest,rfl⟩
  obtain ⟨event,a₁,rest,hone,hrest,rfl⟩ := hrun
  obtain ⟨e,rfl,_,hdelta,hcounter,hd,hin,hevent,hlast,hctr⟩ := archive_first rfl hone
  obtain ⟨htimes,hnumbers,hgaps⟩ := archive_fires hp hd hin (by rw [hctr]; exact Int.le_refl 0) hrest
  have hdue : ofPeriod ((some e).toList.map (fun e => (time,e)) ++ rest) = ofPeriod rest :=
    List.filter_cons_of_neg (by simp [hcounter])
  have hnow : time - time ≤ getMinimalEventReportingPeriod (ms archivePeriod) := by
    rw [Int.sub_self]
    exact minimal_nonneg h0
  obtain ⟨hchain,hend⟩ := fires_paced (minimal_nonneg h0) hnow hw
  rw [hlast] at htimes
  rw [hdue,htimes]
  refine ⟨hchain,hend,?_,?_⟩
  · rw [hnumbers,hctr]
    rfl
  · simp only [Option.toList_some,List.map_cons,List.map_nil,List.singleton_append,gaps,hdelta,hgaps,hevent,
      Int.sub_self]

theorem sample_archive_paced : ∃ events a',
    pushArchiveEvents ⟨true,16⟩ unset ⟨-5,5⟩ 1000 .start sampleCalls = some (events,a') ∧
      (ofPeriod events).map (fun e => e.2.counter) = numbered 1 (ofPeriod events).length ∧
      events.map (fun e => e.2.deltaEvent) = gaps 0 (events.map Prod.fst) := by
  have hrun : ∃ events a', pushArchiveEvents ⟨true,16⟩ unset ⟨-5,5⟩ 1000 .start sampleCalls = some (events,a') :=
    ⟨_,_,rfl⟩
  have hw : Watched (ms 500) (sampleCalls.map Prod.fst) := by decide
  obtain ⟨events,a',h⟩ := hrun
  exact ⟨events,a',h,(archive_events_paced (by decide) (by decide) hw h).2.2⟩

end Archived

end CppTango.Event
