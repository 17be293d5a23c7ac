import CppTango.Device.MultiAttribute
import CppTango.Lib.Steps
import Mathlib.Logic.Function.Basic

namespace CppTango.Device.TangoMonitor
open CppTango.Lib

/-- An `omni_thread` by its address. -/
structure OmniThread where
  addr : Nat
  id : Int
deriving DecidableEq, Repr

/-- A monitor and the threads about it: the `omni_thread` each one has now, and the one it had on the way in when it is
in `cond.timedwait`. -/
structure State (T : Type) where
  name : String
  lockedCtr : Int
  lockingThread : Option OmniThread
  self : T → Option OmniThread
  waiting : T → Option (Option OmniThread)

section Calls
variable {T : Type} [DecidableEq T] (t : T) (s : State T)

def getLockingThreadId : Int :=
  match s.lockingThread with
  | some th => th.id
  | none => -1

/-- The call returns. -/
def State.entered : State T × Bool :=
  ({ s with lockedCtr := s.lockedCtr + 1, waiting := Function.update s.waiting t none },true)

def monitorLoop (th : Option OmniThread) : State T × Bool :=
  if s.lockedCtr > 0 then ({ s with waiting := Function.update s.waiting t (some th) },false)
  else { s with lockingThread := th }.entered t

/-- `get_monitor`, and whether the call has returned. -/
def getMonitor : State T × Bool :=
  let th := s.self t
  if s.lockedCtr = 0 then { s with lockingThread := th }.entered t
  else if th ≠ s.lockingThread then monitorLoop t s th
  else s.entered t

/-- Back from `cond.timedwait` in time. -/
def wake : State T × Bool :=
  match s.waiting t with
  | none => (s,false)
  | some th => monitorLoop t s th

/-- Back from `cond.timedwait` too late; the text of the exception needs the identifier of the caller. -/
def timeOut : State T × Option DevErrorList :=
  match s.waiting t with
  | none => (s,none)
  | some th =>
    ({ s with waiting := Function.update s.waiting t none },
      th.map fun th => thrown "API_CommandTimedOut"
        ("Thread " ++ toString th.id ++ " is not able to acquire serialization monitor \"" ++ s.name ++ "\", " ++
          " it is currently held by thread " ++ toString (getLockingThreadId s) ++ ".") "TangoMonitor::get_monitor")

def relMonitor : State T :=
  if s.lockedCtr = 0 ∨ s.self t ≠ s.lockingThread then s
  else
    let s := { s with lockedCtr := s.lockedCtr - 1 }
    if s.lockedCtr = 0 then { s with lockingThread := none } else s

end Calls

/-- `renew` is what happens to the `omni_thread` of a thread when a dummy is made for it or released. -/
inductive Act (T : Type)
  | get (t : T)
  | wake (t : T)
  | timeOut (t : T)
  | rel (t : T)
  | renew (t : T) (th : Option OmniThread)

/-- A state with what the threads have done so far: `surplus` leaves a release out that finds none, `balance` counts all
calls that have returned. -/
structure Log (T : Type) where
  state : State T
  surplus : T → Nat
  balance : T → Int

section Ownership
variable {T : Type} {h : Log T}

/-- One thread at most is inside, and the monitor says which and how deep. -/
def Owned (surplus : T → Int) (s : State T) : Prop :=
  (∀ t u, 0 < surplus t → 0 < surplus u → t = u) ∧
    ((∃ t, 0 < surplus t ∧ s.lockedCtr = surplus t ∧ s.lockingThread = s.self t) ∨
      (∀ t, surplus t ≤ 0) ∧ s.lockedCtr = 0)

structure Inv (h : Log T) : Prop where
  held : (∃ t th, h.state.self t = some th ∧ h.state.lockingThread = some th ∧ 0 < h.surplus t ∧
      h.state.lockedCtr = h.surplus t ∧ ∀ u, u ≠ t → h.surplus u = 0) ∨
    (∀ t, h.surplus t = 0) ∧ h.state.lockedCtr = 0
  distinct : ∀ t u th, h.state.self t = some th → h.state.self u = some th → t = u
  waits : ∀ t th, h.state.waiting t = some th → th = h.state.self t ∧ th ≠ none

theorem Inv.owned (hi : Inv h) : Owned (fun t => (h.surplus t : Int)) h.state := by
  unfold Owned
  rcases hi.held with ⟨t,th,hself,hlock,hpos,hctr,hothers⟩ | ⟨hzero,hctr⟩
  · have hown : ∀ u, 0 < (h.surplus u : Int) → u = t := by
      intro u hu
      by_contra hne
      have := hothers u hne
      omega
    refine ⟨fun u v hu hv => (hown u hu).trans (hown v hv).symm,.inl ⟨t,?_,hctr,?_⟩⟩
    · dsimp only
      omega
    · rw [hlock,hself]
  · have hnone : ∀ u, ¬ 0 < (h.surplus u : Int) := by
      intro u
      have := hzero u
      omega
    exact ⟨fun u _ hu => absurd hu (hnone u),.inr ⟨fun u => Int.not_lt.mp (hnone u),hctr⟩⟩

/-- What the owner is, for a thread that is compared with it. -/
theorem Inv.owner (hi : Inv h) (hctr : h.state.lockedCtr ≠ 0) :
    0 < h.state.lockedCtr ∧ ∃ t th, h.state.self t = some th ∧ h.state.lockingThread = some th ∧
      h.state.lockedCtr = h.surplus t ∧ 0 < h.surplus t ∧ ∀ u, u ≠ t → h.surplus u = 0 := by
  rcases hi.held with ⟨t,th,hself,hlock,hpos,hc,hothers⟩ | ⟨-,hc⟩
  · exact ⟨by omega,t,th,hself,hlock,hc,hpos,hothers⟩
  · exact absurd hc hctr

theorem Inv.free (hi : Inv h) (hctr : h.state.lockedCtr = 0) (u : T) : h.surplus u = 0 := by
  rcases hi.held with ⟨t,th,hself,hlock,hpos,hc,hothers⟩ | ⟨hzero,-⟩
  · omega
  · exact hzero u

/-- Who is not inside is not taken for the owner. -/
theorem Inv.foreign {t : T} (hi : Inv h) (hs : h.surplus t = 0) : relMonitor t h.state = h.state := by
  unfold relMonitor
  by_cases hctr : h.state.lockedCtr = 0
  · rw [if_pos (.inl hctr)]
  · obtain ⟨-,v,th,hv,hlock,-,hsur,-⟩ := hi.owner hctr
    refine if_pos (.inr fun hsame => ?_)
    have htv : t = v := hi.distinct t v th (hsame.trans hlock) hv
    rw [htv] at hs
    omega

end Ownership

section Runs
variable {T : Type} [DecidableEq T]

def Log.start (name : String) (self : T → Option OmniThread) : Log T :=
  ⟨⟨name,0,none,self,fun _ => none⟩,fun _ => 0,fun _ => 0⟩

/-- A `get_monitor` has gone on, and perhaps returned. -/
def Log.gone (h : Log T) (t : T) (r : State T × Bool) : Log T :=
  if r.2 then ⟨r.1,Function.update h.surplus t (h.surplus t + 1),Function.update h.balance t (h.balance t + 1)⟩
  else { h with state := r.1 }

def step (h : Log T) : Act T → Log T
  | .get t => h.gone t (getMonitor t h.state)
  | .wake t => h.gone t (wake t h.state)
  | .timeOut t => { h with state := (timeOut t h.state).1 }
  | .rel t =>
    ⟨relMonitor t h.state,Function.update h.surplus t (h.surplus t - 1),Function.update h.balance t (h.balance t - 1)⟩
  | .renew t th => { h with state := { h.state with self := Function.update h.state.self t th } }

/-- A thread in `cond.timedwait` makes no other call. A thread gets or loses an `omni_thread` while it is outside, and
never one that another thread has. -/
def Called (h : Log T) : Act T → Prop
  | .get t => h.state.waiting t = none
  | .rel t => h.state.waiting t = none
  | .renew t th => h.state.waiting t = none ∧ h.surplus t = 0 ∧ ∀ u, u ≠ t → h.state.self u = th → th = none
  | _ => True

/-- The thread that wants the monitor has an `omni_thread`. -/
def HasSelf (h : Log T) : Act T → Prop
  | .get t => h.state.self t ≠ none
  | _ => True

structure Run (T : Type) [DecidableEq T] where
  name : String
  self : T → Option OmniThread
  distinct : ∀ t u th, self t = some th → self u = some th → t = u
  acts : List (Act T)
  called : Along step Called (Log.start name self) acts

/-- The log after the first calls of a run. -/
def Run.after (r : Run T) (l : List (Act T)) : Log T := l.foldl step (Log.start r.name r.self)

/-- A release by another thread than the owner changes nothing, and the monitor is as it was as long as a `get_monitor`
has not returned and when it throws. -/
def Unchanged (h : Log T) : Prop :=
  (∀ t, h.surplus t = 0 → relMonitor t h.state = h.state) ∧
    (∀ t, ∀ a ∈ [Act.get t,Act.wake t,Act.timeOut t], (step h a).surplus = h.surplus →
      (step h a).state.lockedCtr = h.state.lockedCtr ∧ (step h a).state.lockingThread = h.state.lockingThread)

theorem start_inv (r : Run T) : Inv (Log.start r.name r.self) where
  held := .inr ⟨fun _ => rfl,rfl⟩
  distinct := r.distinct
  waits t th h := by cases h

section Steps
variable {h : Log T} {t : T}

theorem waits_update {waiting : T → Option (Option OmniThread)} {self : T → Option OmniThread}
    {v : Option (Option OmniThread)} (hw : ∀ t th, waiting t = some th → th = self t ∧ th ≠ none)
    (hv : ∀ th, v = some th → th = self t ∧ th ≠ none) :
    ∀ u th, Function.update waiting t v u = some th → th = self u ∧ th ≠ none := by
  intro u th hu
  by_cases hut : u = t
  · rw [hut,Function.update_self] at hu
    rw [hut]
    exact hv th hu
  · rw [Function.update_of_ne hut] at hu
    exact hw u th hu

/-- A free monitor becomes that of the thread. -/
theorem Inv.takes (hi : Inv h) (hctr : h.state.lockedCtr = 0) (hself : h.state.self t ≠ none) :
    Inv (h.gone t ({ h.state with lockingThread := h.state.self t }.entered t)) := by
  obtain ⟨th,hth⟩ := Option.ne_none_iff_exists'.mp hself
  have hzero := hi.free hctr
  refine ⟨.inl ⟨t,th,hth,hth,?_,?_,?_⟩,hi.distinct,waits_update hi.waits (by simp)⟩
  · change 0 < Function.update h.surplus t (h.surplus t + 1) t
    rw [Function.update_self]
    exact Nat.succ_pos _
  · change h.state.lockedCtr + 1 = (Function.update h.surplus t (h.surplus t + 1) t : Nat)
    rw [Function.update_self,hctr,hzero t]
    rfl
  · intro u hu
    change Function.update h.surplus t (h.surplus t + 1) u = 0
    rw [Function.update_of_ne hu]
    exact hzero u

/-- The owner goes deeper. -/
theorem Inv.deeper (hi : Inv h) (hctr : h.state.lockedCtr ≠ 0) (hself : h.state.self t = h.state.lockingThread) :
    Inv (h.gone t (h.state.entered t)) := by
  obtain ⟨hpos,v,th,hv,hlock,hc,hsur,hothers⟩ := hi.owner hctr
  have htv : t = v := hi.distinct t v th (hself.trans hlock) hv
  subst htv
  refine ⟨.inl ⟨t,th,hv,hlock,?_,?_,?_⟩,hi.distinct,waits_update hi.waits (by simp)⟩
  · change 0 < Function.update h.surplus t (h.surplus t + 1) t
    rw [Function.update_self]
    exact Nat.succ_pos _
  · change h.state.lockedCtr + 1 = (Function.update h.surplus t (h.surplus t + 1) t : Nat)
    rw [Function.update_self,hc]
    rfl
  · intro u hu
    change Function.update h.surplus t (h.surplus t + 1) u = 0
    rw [Function.update_of_ne hu]
    exact hothers u hu

theorem Inv.loop (hi : Inv h) (hself : h.state.self t ≠ none) :
    Inv (h.gone t (monitorLoop t h.state (h.state.self t))) := by
  unfold monitorLoop
  split
  · exact ⟨hi.held,hi.distinct,waits_update hi.waits (fun th hth => by cases hth; exact ⟨rfl,hself⟩)⟩
  · rename_i hc
    have hctr : h.state.lockedCtr = 0 := by
      by_contra hne
      exact hc (hi.owner hne).1
    exact hi.takes hctr hself

theorem Inv.get (hi : Inv h) (hself : h.state.self t ≠ none) : Inv (h.gone t (getMonitor t h.state)) := by
  unfold getMonitor
  dsimp only
  split
  · rename_i hctr
    exact hi.takes hctr hself
  · rename_i hctr
    split
    · exact hi.loop hself
    · rename_i hown
      exact hi.deeper hctr (not_not.mp hown)

theorem Inv.wake (hi : Inv h) : Inv (h.gone t (wake t h.state)) := by
  unfold TangoMonitor.wake
  cases hw : h.state.waiting t with
  | none => exact ⟨hi.held,hi.distinct,hi.waits⟩
  | some th =>
    obtain ⟨rfl,hne⟩ := hi.waits t th hw
    exact hi.loop hne

theorem Inv.timeOut (hi : Inv h) : Inv { h with state := (timeOut t h.state).1 } := by
  unfold TangoMonitor.timeOut
  cases h.state.waiting t with
  | none => exact ⟨hi.held,hi.distinct,hi.waits⟩
  | some th => exact ⟨hi.held,hi.distinct,waits_update hi.waits (by simp)⟩

/-- The owner leaves, or goes up. -/
theorem Inv.leaves (hi : Inv h) (hs : h.surplus t ≠ 0) : Inv (step h (.rel t)) := by
  rcases hi.held with ⟨v,th,hv,hlock,hpos,hctr,hothers⟩ | ⟨hzero,-⟩
  · have htv : t = v := by
      by_contra hne
      exact hs (hothers t hne)
    subst htv
    have hothers' : ∀ u, u ≠ t → Function.update h.surplus t (h.surplus t - 1) u = 0 := by
      intro u hu
      rw [Function.update_of_ne hu]
      exact hothers u hu
    have hgo : ¬ (h.state.lockedCtr = 0 ∨ h.state.self t ≠ h.state.lockingThread) := by
      rw [hv,hlock,hctr]
      simp only [ne_eq,not_true_eq_false,or_false]
      omega
    unfold step relMonitor
    dsimp only
    rw [if_neg hgo]
    split
    · rename_i hone
      refine ⟨.inr ⟨fun u => ?_,hone⟩,hi.distinct,hi.waits⟩
      by_cases hu : u = t
      · dsimp only
        rw [hu,Function.update_self]
        omega
      · exact hothers' u hu
    · rename_i hmore
      refine ⟨.inl ⟨t,th,hv,hlock,?_,?_,hothers'⟩,hi.distinct,hi.waits⟩
      · dsimp only
        rw [Function.update_self]
        omega
      · dsimp only
        rw [Function.update_self]
        omega
  · exact absurd (hzero t) hs

theorem Inv.rel (hi : Inv h) : Inv (step h (.rel t)) := by
  by_cases hs : h.surplus t = 0
  · have hup : Function.update h.surplus t (h.surplus t - 1) = h.surplus := by
      rw [hs]
      exact (congrArg _ hs.symm).trans (Function.update_eq_self t h.surplus)
    unfold step
    dsimp only
    rw [hi.foreign hs,hup]
    exact ⟨hi.held,hi.distinct,hi.waits⟩
  · exact hi.leaves hs

theorem Inv.renew (hi : Inv h) {th : Option OmniThread} (hc : Called h (.renew t th)) : Inv (step h (.renew t th)) := by
  obtain ⟨hwait,hs,hnew⟩ := hc
  have hself : ∀ u, u ≠ t → (step h (.renew t th)).state.self u = h.state.self u :=
    fun u hu => Function.update_of_ne hu ..
  have hmine : (step h (.renew t th)).state.self t = th := Function.update_self ..
  refine ⟨?_,?_,?_⟩
  · refine hi.held.imp ?_ id
    rintro ⟨v,p,hv,hrest⟩
    have hvt : v ≠ t := by
      rintro rfl
      omega
    exact ⟨v,p,(hself v hvt).trans hv,hrest⟩
  · intro u v p hu hv
    by_cases hut : u = t <;> by_cases hvt : v = t
    · exact hut.trans hvt.symm
    · rw [hut,hmine] at hu
      rw [hself v hvt] at hv
      cases (hnew v hvt (hv.trans hu.symm)).symm.trans hu
    · rw [hvt,hmine] at hv
      rw [hself u hut] at hu
      cases (hnew u hut (hu.trans hv.symm)).symm.trans hv
    · rw [hself u hut] at hu
      rw [hself v hvt] at hv
      exact hi.distinct u v p hu hv
  · intro u p hu
    have hut : u ≠ t := by
      rintro rfl
      cases hwait.symm.trans hu
    rw [hself u hut]
    exact hi.waits u p hu

theorem Inv.step (hi : Inv h) {a : Act T} (hc : Called h a) (hself : HasSelf h a) : Inv (step h a) := by
  cases a with
  | get t => exact hi.get hself
  | wake t => exact hi.wake
  | timeOut t => exact hi.timeOut
  | rel t => exact hi.rel
  | renew t th => exact hi.renew hc

end Steps

section Waiting
variable {s : State T} {t : T}

theorem loop_waits {th : Option OmniThread} (h : (monitorLoop t s th).2 = false) :
    (monitorLoop t s th).1.lockedCtr = s.lockedCtr ∧ (monitorLoop t s th).1.lockingThread = s.lockingThread := by
  unfold monitorLoop at h ⊢
  split at h
  · rename_i hc
    rw [if_pos hc]
    exact ⟨rfl,rfl⟩
  · cases h

theorem get_waits (h : (getMonitor t s).2 = false) :
    (getMonitor t s).1.lockedCtr = s.lockedCtr ∧ (getMonitor t s).1.lockingThread = s.lockingThread := by
  unfold getMonitor at h ⊢
  dsimp only at h ⊢
  split at h
  · cases h
  · rename_i hc
    rw [if_neg hc]
    split at h
    · rename_i ho
      rw [if_pos ho]
      exact loop_waits h
    · cases h

theorem wake_waits (h : (wake t s).2 = false) :
    (wake t s).1.lockedCtr = s.lockedCtr ∧ (wake t s).1.lockingThread = s.lockingThread := by
  unfold wake at h ⊢
  cases hw : s.waiting t with
  | none => exact ⟨rfl,rfl⟩
  | some th =>
    rw [hw] at h
    exact loop_waits h

/-- A call that has returned shows in the surplus. -/
theorem gone_waits {h : Log T} {r : State T × Bool} (hs : (h.gone t r).surplus = h.surplus) :
    r.2 = false ∧ (h.gone t r).state = r.1 := by
  unfold Log.gone at hs ⊢
  split at hs
  · have ht : Function.update h.surplus t (h.surplus t + 1) t = h.surplus t := congrFun hs t
    rw [Function.update_self] at ht
    omega
  · rename_i hr
    rw [if_neg hr]
    exact ⟨Bool.eq_false_iff.mpr hr,rfl⟩

theorem Inv.unchanged {h : Log T} (hi : Inv h) : Unchanged h := by
  refine ⟨fun t hs => hi.foreign hs,fun t a ha hs => ?_⟩
  rcases List.mem_cons.mp ha with rfl | ha
  · obtain ⟨hr,hstate⟩ := gone_waits hs
    change (h.gone t (getMonitor t h.state)).state.lockedCtr = _ ∧
      (h.gone t (getMonitor t h.state)).state.lockingThread = _
    rw [hstate]
    exact get_waits hr
  · rcases List.mem_cons.mp ha with rfl | ha
    · obtain ⟨hr,hstate⟩ := gone_waits hs
      change (h.gone t (TangoMonitor.wake t h.state)).state.lockedCtr = _ ∧
        (h.gone t (TangoMonitor.wake t h.state)).state.lockingThread = _
      rw [hstate]
      exact wake_waits hr
    · rw [List.mem_singleton.mp ha]
      unfold TangoMonitor.step TangoMonitor.timeOut
      dsimp only
      cases h.state.waiting t with
      | none => exact ⟨rfl,rfl⟩
      | some th => exact ⟨rfl,rfl⟩

end Waiting

theorem Run.inv (r : Run T) (hself : Along step HasSelf (Log.start r.name r.self) r.acts) {l : List (Act T)}
    (hl : l <+: r.acts) : Inv (r.after l) :=
  along_inv (fun _ _ hi ha => hi.step ha.1 ha.2) (start_inv r)
    (along_and (along_start r.called hl) (along_start hself hl))

/-- Threads with an `omni_thread` have a lock that knows its owner and how often it was taken. -/
theorem monitor_owned (r : Run T) (hself : Along step HasSelf (Log.start r.name r.self) r.acts) {l : List (Act T)}
    (hl : l <+: r.acts) :
    Owned (fun t => ((r.after l).surplus t : Int)) (r.after l).state ∧ Unchanged (r.after l) :=
  ⟨(r.inv hself hl).owned,(r.inv hself hl).unchanged⟩

end Runs

section Cases

def workers (t : Bool) : Option OmniThread := if t then some ⟨16,1⟩ else some ⟨32,2⟩

theorem workers_differ (t u : Bool) (th : OmniThread) (ht : workers t = some th) (hu : workers u = some th) :
    t = u := by
  have hdiffer : ∀ t u, workers t = workers u → t = u := by decide
  exact hdiffer t u (ht.trans hu.symm)

/-- One worker is inside twice, the other one waits and gives up, and comes in after all. -/
def turnsTaken : Run Bool where
  name := "dev"
  self := workers
  distinct := workers_differ
  acts := [.get true,.get true,.get false,.wake false,.timeOut false,.rel false,.rel true,.rel true,.get false]
  called := by
    simp [Along,Called,step,Log.gone,getMonitor,wake,timeOut,relMonitor,monitorLoop,State.entered,Log.start,workers]

theorem turns_owned : Owned (fun t => ((turnsTaken.after turnsTaken.acts).surplus t : Int))
    (turnsTaken.after turnsTaken.acts).state ∧ Unchanged (turnsTaken.after turnsTaken.acts) := by
  refine monitor_owned turnsTaken ?_ (List.prefix_refl _)
  simp [turnsTaken,Along,HasSelf,step,Log.gone,getMonitor,wake,timeOut,relMonitor,monitorLoop,State.entered,Log.start,
    workers]

/-- A worker releases before it gets the monitor; the release counts as a call that has returned. -/
def earlyRelease : Run Bool where
  name := "dev"
  self := workers
  distinct := workers_differ
  acts := [.rel true,.get true]
  called := ⟨rfl,rfl,trivial⟩

/-- Two threads of another library. -/
def foreigners : Run Bool where
  name := "dev"
  self _ := none
  distinct _ _ _ h := by cases h
  acts := [.get true,.get false]
  called := ⟨rfl,rfl,trivial⟩

/-- When all calls count, the depth is not the surplus of the owner; and two threads without an `omni_thread` are inside
together. -/
theorem calls_and_foreigners_miscounted :
    (Along step HasSelf (Log.start earlyRelease.name earlyRelease.self) earlyRelease.acts ∧
      ¬ Owned (earlyRelease.after earlyRelease.acts).balance (earlyRelease.after earlyRelease.acts).state) ∧
    ¬ Owned (fun t => ((foreigners.after foreigners.acts).surplus t : Int))
      (foreigners.after foreigners.acts).state := by
  refine ⟨⟨⟨trivial,?_,trivial⟩,?_⟩,?_⟩
  · change workers true ≠ none
    decide
  · rintro ⟨-,⟨t,hpos,-⟩ | ⟨-,hctr⟩⟩
    · cases t <;> exact absurd hpos (by decide)
    · exact absurd hctr (by decide)
  · rintro ⟨hone,-⟩
    cases hone true false (by decide) (by decide)

end Cases
end CppTango.Device.TangoMonitor
