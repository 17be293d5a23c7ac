import CppTango.Data
import Mathlib.Logic.Function.Basic

namespace CppTango.Client.Locking

/-- Times and durations in microseconds. -/
structure LockedDevice where
  devName : String
  validity : Int
deriving DecidableEq, Repr

structure LockThread where
  sleep : Option Int
  lockedDevices : List LockedDevice
  reLockCmdArgs : List String
  period : Int
  nextWork : Int
deriving DecidableEq, Repr

def margin : Int := 500000

/-- The constructor, and `run` up to its loop. -/
def lockThread (now : Int) (dev : String) (per : Int) : LockThread where
  lockedDevices := [⟨dev,per⟩]
  reLockCmdArgs := []
  period := per - margin
  sleep := some (per - margin)
  nextWork := now + (per - margin)

/-- `std::min_element`: the first device of smallest validity. -/
def minElement (first : LockedDevice) (rest : List LockedDevice) : LockedDevice :=
  rest.foldl (fun m d => if d.validity < m.validity then d else m) first

/-- It is called with at least one device. -/
def updateThPeriod (th : LockThread) : LockThread :=
  match th.lockedDevices with
  | [] => { th with reLockCmdArgs := [] }
  | d::ds => { th with reLockCmdArgs := [], period := (minElement d ds).validity - margin }

def addDev (name : String) (validity : Int) (th : LockThread) : LockThread :=
  updateThPeriod
    (if th.lockedDevices.any (·.devName == name) then th
    else { th with lockedDevices := th.lockedDevices ++ [⟨name,validity⟩] })

def remDev (name : String) (th : LockThread) : LockThread :=
  let th := { th with lockedDevices := th.lockedDevices.eraseP (·.devName == name) }
  if th.lockedDevices = [] then th else updateThPeriod th

/-- The device a re-lock error is about, by the start of its text. -/
def refusedDevice (e : DevError) : Option String :=
  if e.reason = "API_DeviceLocked" ∨ e.reason = "API_DeviceNotLocked" ∨
      e.reason = "API_DeviceNotExported" then
    if e.desc.toList.contains ':' then some (String.ofList (e.desc.toList.takeWhile (· ≠ ':')))
    else none
  else none

/-- The names sent with `ReLockDevices`, and the thread after the answer `errors`. -/
def oneMoreLock (errors : DevErrorList) (th : LockThread) : List String × LockThread :=
  let args := if th.reLockCmdArgs = [] then th.lockedDevices.map (·.devName) else th.reLockCmdArgs
  (args,
    { th with
      reLockCmdArgs := args
      lockedDevices := (errors.filterMap refusedDevice).foldl (fun ds name =>
        ds.eraseP (fun d => d.devName.toLower == name.toLower)) th.lockedDevices })

def computeSleepTime (cmd : Bool) (now : Int) (th : LockThread) : LockThread :=
  if cmd = false then { th with sleep := some th.period, nextWork := now + th.period }
  else if th.nextWork - now < 0 then { th with sleep := none }
  else { th with sleep := some (th.nextWork - now) }

section World

/-- A thread with the clock, and what the server knows of each device: when it was last locked
or re-locked, and with which validity the client last locked it. -/
structure World where
  thread : LockThread
  now : Int
  date : String → Int
  asked : String → Int

/-- The instant of the next wake-up. -/
def wakeUp (w : World) : Int :=
  match w.thread.sleep with
  | some s => w.now + s
  | none => w.now

inductive Event
  | addDev (now : Int) (name : String) (validity : Int)
  | remDev (now : Int) (name : String)
  | timeOut
deriving DecidableEq, Repr

def start (now : Int) (dev : String) (per : Int) : World where
  thread := lockThread now dev per
  now := now
  date := fun _ => now
  asked := fun _ => per

/-- One turn of the loop of `run`. A device is locked on the server before it is added; a
wake-up re-locks the devices whose names are sent. -/
def step (w : World) : Event → World
  | .addDev now name validity =>
    { thread := computeSleepTime true now (addDev name validity w.thread)
      now := now
      date := Function.update w.date name now
      asked := Function.update w.asked name validity }
  | .remDev now name =>
    { w with
      thread := computeSleepTime true now (remDev name w.thread)
      now := now }
  | .timeOut =>
    { w with
      thread := computeSleepTime false (wakeUp w) (oneMoreLock [] w.thread).2
      now := wakeUp w
      date := fun n => if n ∈ (oneMoreLock [] w.thread).1 then wakeUp w else w.date n }

def run (w : World) (es : List Event) : World := es.foldl step w

def minValidity : Int := 2000000

/-- When an event can take place: a command before the next wake-up, as long as the thread has
devices. It exits with its last one. -/
def Enabled (w : World) (e : Event) : Prop :=
  w.thread.lockedDevices ≠ [] ∧
    match e with
    | .addDev now _ validity => w.now ≤ now ∧ now ≤ wakeUp w ∧ minValidity ≤ validity
    | .remDev now _ => w.now ≤ now ∧ now ≤ wakeUp w
    | .timeOut => True

def EnabledRun : World → List Event → Prop
  | _,[] => True
  | w,e::es => Enabled w e ∧ EnabledRun (step w e) es

/-- An added device does not need the thread before it wakes up, and a device that is added
again is not given a shorter validity than the thread has noted. -/
def InTime (w : World) : Event → Prop
  | .addDev now name validity =>
    w.thread.nextWork ≤ now + validity ∧
      ∀ d ∈ w.thread.lockedDevices, d.devName = name → d.validity - margin ≤ validity
  | _ => True

def InTimeRun : World → List Event → Prop
  | _,[] => True
  | w,e::es => InTime w e ∧ InTimeRun (step w e) es

end World

section Period

theorem minElement_spec (d : LockedDevice) (ds : List LockedDevice) :
    minElement d ds ∈ d::ds ∧ ∀ e ∈ d::ds, (minElement d ds).validity ≤ e.validity := by
  induction ds generalizing d with
  | nil => simp [minElement]
  | cons x xs ih =>
    have hstep : minElement d (x::xs) =
        minElement (if x.validity < d.validity then x else d) xs := rfl
    obtain ⟨hm,hle⟩ := ih (if x.validity < d.validity then x else d)
    have hfirst := hle _ List.mem_cons_self
    have hmin : (if x.validity < d.validity then x else d).validity ≤ d.validity ∧
        (if x.validity < d.validity then x else d).validity ≤ x.validity := by
      split <;> omega
    rw [hstep]
    refine ⟨?_,?_⟩
    · rcases List.mem_cons.mp hm with he | ht
      · rw [he]
        split
        · exact List.mem_cons_of_mem _ List.mem_cons_self
        · exact List.mem_cons_self
      · exact List.mem_cons_of_mem _ (List.mem_cons_of_mem _ ht)
    · intro e he
      rcases List.mem_cons.mp he with rfl | he
      · exact Int.le_trans hfirst hmin.1
      · rcases List.mem_cons.mp he with rfl | he
        · exact Int.le_trans hfirst hmin.2
        · exact hle e (List.mem_cons_of_mem _ he)

/-- What the thread's own members satisfy after every command. -/
structure Sound (th : LockThread) : Prop where
  period_le : ∀ d ∈ th.lockedDevices, th.period ≤ d.validity - margin
  period_nonneg : 0 ≤ th.period
  stored : ∀ d ∈ th.lockedDevices, minValidity ≤ d.validity
  args : th.reLockCmdArgs = [] ∨ th.reLockCmdArgs = th.lockedDevices.map (·.devName)

theorem updateThPeriod_devices (th : LockThread) :
    (updateThPeriod th).lockedDevices = th.lockedDevices := by
  unfold updateThPeriod
  split <;> simp_all

theorem updateThPeriod_nextWork (th : LockThread) :
    (updateThPeriod th).nextWork = th.nextWork := by
  unfold updateThPeriod
  split <;> rfl

theorem sound_updateThPeriod {th : LockThread} (hne : th.lockedDevices ≠ [])
    (hv : ∀ d ∈ th.lockedDevices, minValidity ≤ d.validity) : Sound (updateThPeriod th) := by
  obtain ⟨d,ds,hd⟩ := List.exists_cons_of_ne_nil hne
  obtain ⟨hm,hle⟩ := minElement_spec d ds
  have hp : (updateThPeriod th).period = (minElement d ds).validity - margin := by
    simp [updateThPeriod,hd]
  have h2 := hv _ (hd ▸ hm)
  refine ⟨?_,?_,?_,?_⟩
  · intro e he
    rw [updateThPeriod_devices,hd] at he
    have := hle e he
    rw [hp]
    omega
  · rw [hp]
    simp only [minValidity,margin] at *
    omega
  · rw [updateThPeriod_devices]
    exact hv
  · left
    simp [updateThPeriod,hd]

end Period

section Commands
variable {th : LockThread} {name : String} {validity : Int}

/-- The devices after an addition: those before, and the new one if its name is not there. -/
theorem addDev_devices (d : LockedDevice) (h : d ∈ (addDev name validity th).lockedDevices) :
    d ∈ th.lockedDevices ∨
      (d = ⟨name,validity⟩ ∧ ∀ e ∈ th.lockedDevices, e.devName ≠ name) := by
  unfold addDev at h
  rw [updateThPeriod_devices] at h
  split at h
  next => exact Or.inl h
  next hn =>
    rcases List.mem_append.mp h with h | h
    · exact Or.inl h
    · right
      refine ⟨List.mem_singleton.mp h,?_⟩
      intro e he hname
      exact hn (List.any_eq_true.mpr ⟨e,he,by simpa using hname⟩)

theorem sound_addDev (h : Sound th) (hne : th.lockedDevices ≠ []) (hv : minValidity ≤ validity) :
    Sound (addDev name validity th) := by
  unfold addDev
  apply sound_updateThPeriod
  · split
    · exact hne
    · simp
  · intro d hd
    have hmem : d ∈ (addDev name validity th).lockedDevices := by
      unfold addDev
      rw [updateThPeriod_devices]
      exact hd
    rcases addDev_devices d hmem with hd | ⟨rfl,-⟩
    · exact h.stored d hd
    · exact hv

theorem addDev_nextWork : (addDev name validity th).nextWork = th.nextWork := by
  unfold addDev
  rw [updateThPeriod_nextWork]
  split <;> rfl

theorem remDev_devices : (remDev name th).lockedDevices =
    th.lockedDevices.eraseP (·.devName == name) := by
  unfold remDev
  dsimp only
  split
  · rfl
  · rw [updateThPeriod_devices]

theorem remDev_nextWork : (remDev name th).nextWork = th.nextWork := by
  unfold remDev
  dsimp only
  split
  · rfl
  · rw [updateThPeriod_nextWork]

theorem sound_remDev (h : Sound th) : Sound (remDev name th) ∨
    (remDev name th).lockedDevices = [] := by
  by_cases he : th.lockedDevices.eraseP (·.devName == name) = []
  · right
    rw [remDev_devices,he]
  · left
    unfold remDev
    dsimp only
    rw [if_neg he]
    apply sound_updateThPeriod he
    intro d hd
    exact h.stored d (List.mem_of_mem_eraseP hd)

theorem oneMoreLock_names (h : Sound th) :
    (oneMoreLock [] th).1 = th.lockedDevices.map (·.devName) := by
  unfold oneMoreLock
  rcases h.args with ha | ha
  · simp [ha]
  · simp only [ha]
    split
    · rfl
    · rfl

theorem sound_oneMoreLock (h : Sound th) : Sound (oneMoreLock [] th).2 where
  period_le := h.period_le
  period_nonneg := h.period_nonneg
  stored := h.stored
  args := Or.inr (oneMoreLock_names h)

end Commands

section Runs
variable {w : World}

/-- The planned wake-up is not after any listed device's lock runs out. -/
structure Kept (w : World) : Prop where
  sound : Sound w.thread ∨ w.thread.lockedDevices = []
  sleep : w.thread.sleep = some (w.thread.nextWork - w.now)
  ahead : w.now ≤ w.thread.nextWork
  asked : ∀ d ∈ w.thread.lockedDevices, d.validity - margin ≤ w.asked d.devName
  deadline : ∀ d ∈ w.thread.lockedDevices,
    w.thread.nextWork ≤ w.date d.devName + w.asked d.devName

theorem Kept.wakeUp (h : Kept w) : wakeUp w = w.thread.nextWork := by
  unfold Locking.wakeUp
  rw [h.sleep]
  dsimp only
  omega

theorem kept_start (now : Int) (dev : String) (per : Int) (hp : minValidity ≤ per) :
    Kept (start now dev per) where
  sound := Or.inl
    { period_le := by simp [start,lockThread]
      period_nonneg := by
        simp only [start,lockThread,minValidity,margin] at *
        omega
      stored := by simpa [start,lockThread] using hp
      args := Or.inl rfl }
  sleep := by
    simp only [start,lockThread]
    congr 1
    omega
  ahead := by
    simp only [start,lockThread,minValidity,margin] at *
    omega
  asked := by
    simp only [start,lockThread,margin,List.mem_singleton]
    rintro d rfl
    dsimp only
    omega
  deadline := by
    simp only [start,lockThread,margin]
    intro d _
    omega

theorem Kept.listed (h : Kept w) (hne : w.thread.lockedDevices ≠ []) : Sound w.thread :=
  h.sound.resolve_right hne

/-- After a command the thread only works out how long it still has to sleep. -/
theorem computeSleepTime_cmd {now : Int} {th : LockThread} (h : now ≤ th.nextWork) :
    computeSleepTime true now th = { th with sleep := some (th.nextWork - now) } := by
  unfold computeSleepTime
  rw [if_neg (by decide),if_neg (by omega)]

theorem kept_addDev (h : Kept w) {now : Int} {name : String} {validity : Int}
    (he : Enabled w (.addDev now name validity)) (ht : InTime w (.addDev now name validity)) :
    Kept (step w (.addDev now name validity)) := by
  obtain ⟨hne,-,hnow,hv⟩ := he
  obtain ⟨hnext,hsame⟩ := ht
  rw [h.wakeUp] at hnow
  have hw : now ≤ (addDev name validity w.thread).nextWork := by
    rw [addDev_nextWork]
    exact hnow
  simp only [step,computeSleepTime_cmd hw]
  refine ⟨Or.inl ?_,rfl,hw,?_,?_⟩
  · obtain ⟨hp,h0,hs,ha⟩ := sound_addDev (h.listed hne) hne hv
    exact ⟨hp,h0,hs,ha⟩
  · intro d hd
    rcases addDev_devices d hd with hd | ⟨rfl,-⟩
    · by_cases hn : d.devName = name
      · simp only [hn,Function.update_self]
        exact hsame d hd hn
      · simp only [Function.update_of_ne hn]
        exact h.asked d hd
    · simp only [Function.update_self,margin]
      omega
  · intro d hd
    simp only [addDev_nextWork]
    rcases addDev_devices d hd with hd | ⟨rfl,-⟩
    · by_cases hn : d.devName = name
      · simp only [hn,Function.update_self]
        exact hnext
      · simp only [Function.update_of_ne hn]
        exact h.deadline d hd
    · simp only [Function.update_self]
      exact hnext

theorem kept_remDev (h : Kept w) {now : Int} {name : String}
    (he : Enabled w (.remDev now name)) : Kept (step w (.remDev now name)) := by
  obtain ⟨hne,-,hnow⟩ := he
  rw [h.wakeUp] at hnow
  have hw : now ≤ (remDev name w.thread).nextWork := by
    rw [remDev_nextWork]
    exact hnow
  have hmem : ∀ d ∈ (remDev name w.thread).lockedDevices, d ∈ w.thread.lockedDevices := by
    intro d hd
    rw [remDev_devices] at hd
    exact List.mem_of_mem_eraseP hd
  simp only [step,computeSleepTime_cmd hw]
  refine ⟨?_,rfl,hw,fun d hd => h.asked d (hmem d hd),?_⟩
  · have hr : Sound (remDev name w.thread) ∨ (remDev name w.thread).lockedDevices = [] :=
      sound_remDev (h.listed hne)
    rcases hr with hs | hs
    · obtain ⟨hp,h0,hs,ha⟩ := hs
      exact Or.inl ⟨hp,h0,hs,ha⟩
    · exact Or.inr hs
  · intro d hd
    simp only [remDev_nextWork]
    exact h.deadline d (hmem d hd)

/-- A wake-up re-locks every listed device, and the next one comes within every validity. -/
theorem kept_timeOut (h : Kept w) (he : Enabled w .timeOut) : Kept (step w .timeOut) := by
  have hs := h.listed he.1
  have hp := hs.period_nonneg
  have hwake : Locking.wakeUp w + (oneMoreLock [] w.thread).2.period =
      Locking.wakeUp w + w.thread.period := rfl
  simp only [step,computeSleepTime,if_true]
  refine ⟨Or.inl ?_,?_,?_,h.asked,?_⟩
  · obtain ⟨hp,h0,hs,ha⟩ := sound_oneMoreLock hs
    exact ⟨hp,h0,hs,ha⟩
  · simp only [hwake]
    congr 1
    simp only [oneMoreLock]
    omega
  · simp only [hwake]
    omega
  · intro d hd
    have hd' : d ∈ w.thread.lockedDevices := hd
    have hn : d.devName ∈ (oneMoreLock [] w.thread).1 := by
      rw [oneMoreLock_names hs]
      exact List.mem_map_of_mem hd'
    have h1 := hs.period_le d hd'
    have h2 := h.asked d hd'
    simp only [if_pos hn,hwake]
    omega

theorem kept_step (h : Kept w) (e : Event) (he : Enabled w e) (ht : InTime w e) :
    Kept (step w e) := by
  cases e with
  | addDev now name validity => exact kept_addDev h he ht
  | remDev now name => exact kept_remDev h he
  | timeOut => exact kept_timeOut h he

theorem kept_run (h : Kept w) (es : List Event) (he : EnabledRun w es) (ht : InTimeRun w es) :
    Kept (run w es) := by
  induction es generalizing w with
  | nil => exact h
  | cons e es ih => exact ih (kept_step h e he.1 ht.1) he.2 ht.2

end Runs

/-- A thread whose devices are added in time always wakes up before a listed device's lock has
run out. -/
theorem lock_thread_wakes_in_time (now : Int) (dev : String) (per : Int) (hp : minValidity ≤ per)
    (es : List Event) (he : EnabledRun (start now dev per) es)
    (ht : InTimeRun (start now dev per) es) :
    ∀ d ∈ (run (start now dev per) es).thread.lockedDevices,
      wakeUp (run (start now dev per) es) ≤
        (run (start now dev per) es).date d.devName +
          (run (start now dev per) es).asked d.devName := by
  intro d hd
  have hk := kept_run (kept_start now dev per hp) es he ht
  rw [hk.wakeUp]
  exact hk.deadline d hd

theorem lock_thread_second_device :
    EnabledRun (start 0 "a" 4000000) [.addDev 2000000 "b" 2000000] ∧
    ∀ d ∈ (run (start 0 "a" 4000000) [.addDev 2000000 "b" 2000000]).thread.lockedDevices,
      wakeUp (run (start 0 "a" 4000000) [.addDev 2000000 "b" 2000000]) ≤
        (run (start 0 "a" 4000000) [.addDev 2000000 "b" 2000000]).date d.devName +
          (run (start 0 "a" 4000000) [.addDev 2000000 "b" 2000000]).asked d.devName := by
  have henabled : EnabledRun (start 0 "a" 4000000) [.addDev 2000000 "b" 2000000] :=
    ⟨⟨by decide,by decide,by decide,by decide⟩,trivial⟩
  refine ⟨henabled,?_⟩
  apply lock_thread_wakes_in_time
  · decide
  · exact henabled
  · exact ⟨⟨by decide,by decide⟩,trivial⟩

/-- A device with a short validity is added just after a wake-up was planned for a long one: it
is locked until 3 s, the thread sleeps until 9.5 s. -/
theorem lock_thread_oversleeps :
    EnabledRun (start 0 "a" 10000000) [.addDev 1000000 "b" 2000000] ∧
      ⟨"b",2000000⟩ ∈
        (run (start 0 "a" 10000000) [.addDev 1000000 "b" 2000000]).thread.lockedDevices ∧
      wakeUp (run (start 0 "a" 10000000) [.addDev 1000000 "b" 2000000]) = 9500000 ∧
      (run (start 0 "a" 10000000) [.addDev 1000000 "b" 2000000]).date "b" +
        (run (start 0 "a" 10000000) [.addDev 1000000 "b" 2000000]).asked "b" = 3000000 := by
  refine ⟨⟨⟨by decide,by decide,by decide,by decide⟩,trivial⟩,by decide,by decide,by decide⟩

end CppTango.Client.Locking
