import CppTango.Device.Lock

namespace CppTango.Device.Lock

section Clients

theorem ne_eq_not_eq (a b : ClientAddr) : a.ne b = !a.eq b := by
  unfold ClientAddr.ne ClientAddr.eq
  repeat' split
  all_goals rfl

theorem eq_self (a : ClientAddr) : a.eq a = true := by
  simp [ClientAddr.eq]

theorem notLocker_some (cl locker : ClientAddr) :
    notLocker cl (some locker) = !cl.eq locker := ne_eq_not_eq cl locker

end Clients

section Fits

/-- A Java client of IDL 6 is reported without its class and UUID. -/
def Reportable (a : ClientAddr) : Prop :=
  a.clientLang = .java6 → a.javaIdent = (0,0) ∧ a.javaMainClass = "Not defined"

/-- A lock call that the counter and the status can account for: the locker's count is not
exhausted, a new locker is reportable. -/
def Fits (st : Locking) (c : Timed) : Prop :=
  match c.call with
  | .lock cl _ =>
    if st.deviceLocked ∧ validLock c.now st then
      notLocker cl st.lockerClient = false → st.lockCtr < maxDevLong
    else Reportable cl
  | _ => True

def FitsRun (dev : Dev) : Locking → List Timed → Prop
  | _,[] => True
  | st,c::cs => Fits st c ∧ FitsRun dev (step dev st c) cs

end Fits

section Spec

def Consistent (st : Locking) : Prop :=
  (st.deviceLocked = true ↔ st.lockerClient.isSome = true) ∧
    (st.deviceLocked = true ↔ 1 ≤ st.lockCtr)

def LockedBy (a : ClientAddr) (st : Locking) : Prop :=
  st.deviceLocked = true ∧ st.lockerClient = some a

/-- The device is locked by `a` and the lock has not run out. -/
def HeldBy (now : Int) (a : ClientAddr) (st : Locking) : Prop :=
  LockedBy a st ∧ now ≤ st.lockingDate + st.lockValidity

/-- A status identifies the locker: process for C++ clients, class and UUID for Java ones. -/
def Reports (a : ClientAddr) (s : DevVarLongStringArray) : Prop :=
  s.lvalue[0]? = some 1 ∧ s.svalue[1]? = some a.clientIp ∧
    match a.clientLang with
    | .cpp | .cpp6 => s.lvalue[1]? = some a.clientPid
    | .java | .java6 => s.lvalue.drop 2 = uuidLongs a.javaIdent ∧ s.svalue[2]? = some a.javaMainClass

/-- What a valid lock of `a` means for everybody. -/
structure Excludes (dev : Dev) (now : Int) (a : ClientAddr) (st : Locking) : Prop where
  lock : ∀ b validity, b.ne a = true → ∃ e, lock dev now b validity st = (.error e,st)
  relock : ∀ b, b.ne a = true → ∃ e, relock dev now b st = (.error e,st)
  unlock : ∀ b, b.ne a = true → ∃ e, unlock dev now b false st = (.error e,st)
  refused : ∀ b meth cmd, b.ne a = true → allowed dev cmd = false →
    ∃ e, checkLock dev now b meth cmd st = (.error e,st)
  permitted : ∀ b meth cmd, allowed dev cmd = true → checkLock dev now b meth cmd st = (.ok (),st)
  owner : a.clientIdent = true → ∀ meth cmd, checkLock dev now a meth cmd st = (.ok (),st)
  status : Reports a (lockStatus dev now st).1 ∧ (lockStatus dev now st).2 = st

def locksBy (a : ClientAddr) (calls : List Timed) : Nat :=
  calls.countP (fun c => match c.call with
    | .lock cl _ => cl.eq a
    | _ => false)

def unlocksBy (a : ClientAddr) (calls : List Timed) : Nat :=
  calls.countP (fun c => match c.call with
    | .unlock cl _ => cl.eq a
    | _ => false)

/-- No forced unlock, and the lock is valid whenever a call is made. -/
def Unbroken (dev : Dev) : Locking → List Timed → Prop
  | _,[] => True
  | st,c::cs =>
    validLock c.now st = true ∧ (∀ cl, c.call ≠ .unlock cl true) ∧ Unbroken dev (step dev st c) cs

/-- As long as it is unbroken, a lock that has been taken `n` times is held until it has been
given back as often. -/
structure Nested (dev : Dev) (a : ClientAddr) (n : Nat) (st : Locking) : Prop where
  held : ∀ calls, FitsRun dev st calls → Unbroken dev st calls →
    (∀ p, p <+: calls → unlocksBy a p < n + locksBy a p) →
    LockedBy a (run dev st calls) ∧
      (run dev st calls).lockCtr = n + locksBy a calls - unlocksBy a calls
  freed : ∀ calls, FitsRun dev st calls → Unbroken dev st calls →
    (∀ p, p <+: calls → unlocksBy a p < n + locksBy a p) →
    unlocksBy a calls + 1 = n + locksBy a calls → ∀ now,
    (step dev (run dev st calls) ⟨now,.unlock a false⟩).deviceLocked = false

end Spec

section Held
variable {dev : Dev} {now : Int} {a : ClientAddr} {st : Locking}

theorem HeldBy.valid (h : HeldBy now a st) : validLock now st = true := by
  simpa [validLock] using h.2

theorem HeldBy.notLocker (h : HeldBy now a st) (cl : ClientAddr) :
    notLocker cl st.lockerClient = !cl.eq a := by
  rw [h.1.2,notLocker_some]

theorem lock_held (h : HeldBy now a st) (cl : ClientAddr) (validity : Int) :
    (lock dev now cl validity st).2 = if cl.eq a then takeLock now cl validity st else st := by
  unfold lock
  simp only [h.1.1,h.valid,h.notLocker]
  cases cl.eq a <;> rfl

theorem relock_held (h : HeldBy now a st) (cl : ClientAddr) :
    (relock dev now cl st).2 =
      if cl.eq a then { st with deviceLocked := true, lockingDate := now } else st := by
  unfold relock
  simp only [h.1.1,h.valid,h.notLocker]
  cases cl.eq a <;> rfl

theorem unlock_held (h : HeldBy now a st) (cl : ClientAddr) (forced : Bool) :
    (unlock dev now cl forced st).2 = if forced ∨ cl.eq a then countDown forced st else st := by
  unfold unlock
  simp only [h.1.1,h.valid,h.notLocker]
  cases cl.eq a <;> cases forced <;> rfl

theorem lockStatus_held (h : HeldBy now a st) :
    lockStatus dev now st = (lockedStatus dev a,st) := by
  unfold lockStatus
  simp only [h.1.1,h.1.2,h.valid,if_true]

theorem checkLock_held (h : HeldBy now a st) (cl : ClientAddr) (meth : String)
    (cmd : Option String) :
    checkLock dev now cl meth cmd st =
      if allowed dev cmd = false ∧ (cl.clientIdent = false ∨ cl.eq a = false) then
        (.error (lockedException dev meth),st)
      else (.ok (),st) := by
  unfold checkLock
  simp only [h.1.1,h.valid,h.notLocker]
  cases cl.eq a <;> cases cl.clientIdent <;> cases allowed dev cmd <;> rfl

theorem reports_lockedStatus (h : Reportable a) : Reports a (lockedStatus dev a) := by
  unfold Reports lockedStatus
  cases hl : a.clientLang with
  | cpp => simp
  | cpp6 => simp
  | java => simp [uuidLongs]
  | java6 =>
    obtain ⟨hi,hm⟩ := h hl
    have hz : uuidLongs (0,0) = [0,0,0,0] := by decide
    rw [hi,hm,hz]
    simp

theorem excludes_of_held (h : HeldBy now a st) (hr : Reportable a) : Excludes dev now a st where
  lock := fun b validity hb => by
    unfold Lock.lock
    simp only [h.1.1,h.valid,h.1.2,Lock.notLocker,hb,if_true]
    exact ⟨_,rfl⟩
  relock := fun b hb => by
    unfold Lock.relock
    simp only [h.1.1,h.valid,h.1.2,Lock.notLocker,hb,if_true]
    exact ⟨_,rfl⟩
  unlock := fun b hb => by
    unfold Lock.unlock
    simp only [h.1.1,h.valid,h.1.2,Lock.notLocker,hb]
    exact ⟨_,rfl⟩
  refused := fun b meth cmd hb hc => by
    rw [ne_eq_not_eq,Bool.not_eq_true'] at hb
    rw [checkLock_held h,if_pos ⟨hc,Or.inr hb⟩]
    exact ⟨_,rfl⟩
  permitted := fun b meth cmd hc => by
    rw [checkLock_held h,if_neg (by simp [hc])]
  owner := fun hi meth cmd => by
    rw [checkLock_held h,if_neg (by simp [hi,eq_self])]
  status := by
    rw [lockStatus_held h]
    exact ⟨reports_lockedStatus hr,rfl⟩

end Held

section Steps
variable {dev : Dev} {st : Locking}

theorem devLong_of_mem {x : Int} (h0 : 0 ≤ x) (h : x ≤ maxDevLong) : devLong x = x := by
  unfold devLong maxDevLong at *
  rw [Int.bmod_eq_of_le (by omega) (by omega)]

/-- What every call keeps, as long as it fits. -/
structure Sound (st : Locking) : Prop where
  locker : st.deviceLocked = true ↔ st.lockerClient.isSome = true
  counted : st.deviceLocked = true ↔ 1 ≤ st.lockCtr
  nonneg : 0 ≤ st.lockCtr
  bounded : st.lockCtr ≤ maxDevLong
  reportable : ∀ a, st.lockerClient = some a → Reportable a

theorem sound_unlocked : Sound unlocked where
  locker := by decide
  counted := by decide
  nonneg := by decide
  bounded := by decide
  reportable := fun a h => (by cases h)

theorem sound_basicUnlock (forced : Bool) (st : Locking) : Sound (basicUnlock forced st) where
  locker := by simp [basicUnlock]
  counted := by simp [basicUnlock]
  nonneg := Int.le_refl 0
  bounded := by simp [basicUnlock,maxDevLong]
  reportable := fun a h => (by cases h)

theorem sound_takeLock (h : Sound st) {now : Int} {cl : ClientAddr} {validity : Int}
    (hc : st.lockCtr < maxDevLong) (hr : st.lockerClient = none → Reportable cl) :
    Sound (takeLock now cl validity st) := by
  have h0 := h.nonneg
  have hd : devLong (st.lockCtr + 1) = st.lockCtr + 1 := devLong_of_mem (by omega) (by omega)
  refine ⟨by simp [takeLock],?_,?_,?_,?_⟩
  · simp only [takeLock,hd,true_iff]
    omega
  · simp only [takeLock,hd]
    omega
  · simp only [takeLock,hd]
    omega
  · intro a ha
    cases hl : st.lockerClient with
    | none =>
      simp only [takeLock,hl,Option.getD_none,Option.some.injEq] at ha
      exact ha ▸ hr hl
    | some b =>
      simp only [takeLock,hl,Option.getD_some,Option.some.injEq] at ha
      exact ha ▸ h.reportable b hl

theorem decremented_lockCtr (h : Sound st) : (decremented st).lockCtr = st.lockCtr - 1 ∨
    (st.lockCtr = 0 ∧ (decremented st).lockCtr = 0) := by
  have h0 := h.nonneg
  unfold decremented
  dsimp only
  split <;> omega

theorem sound_countDown (h : Sound st) (forced : Bool) : Sound (countDown forced st) := by
  unfold countDown
  split
  next => exact sound_basicUnlock _ _
  next hn =>
    have hc : ¬ (decremented st).lockCtr ≤ 0 := fun hle => hn (Or.inl hle)
    have hd := decremented_lockCtr h
    have hb := h.bounded
    refine ⟨h.locker,?_,by omega,by omega,h.reportable⟩
    have hl : st.deviceLocked = true := h.counted.mpr (by omega)
    constructor
    · intro _
      omega
    · intro _
      exact hl

theorem Sound.free (h : Sound st) (hl : ¬ st.deviceLocked = true) :
    st.lockerClient = none ∧ st.lockCtr = 0 := by
  have hn := mt h.locker.mpr hl
  have hc := mt h.counted.mpr hl
  have h0 := h.nonneg
  refine ⟨by simpa using hn,by omega⟩

theorem sound_lock {cl : ClientAddr} {validity : Int} (h : Sound st)
    (hf : Fits st ⟨now,.lock cl validity⟩) : Sound (lock dev now cl validity st).2 := by
  have hf' : if st.deviceLocked ∧ validLock now st then
      notLocker cl st.lockerClient = false → st.lockCtr < maxDevLong else Reportable cl := hf
  dsimp only [lock]
  split
  next hl =>
    split
    next hv =>
      rw [if_pos ⟨hl,hv⟩] at hf'
      split
      next => exact h
      next hn =>
        apply sound_takeLock h (hf' (by simpa using hn))
        intro hnone
        have hs := h.locker.mp hl
        simp [hnone] at hs
    next hv =>
      rw [if_neg (fun hh => hv hh.2)] at hf'
      exact sound_takeLock (sound_basicUnlock false st) (show (0 : Int) < maxDevLong by decide)
        (fun _ => hf')
  next hl =>
    rw [if_neg (fun hh => hl hh.1)] at hf'
    apply sound_takeLock h _ (fun _ => hf')
    rw [(h.free hl).2]
    decide

theorem sound_relock (h : Sound st) (cl : ClientAddr) : Sound (relock dev now cl st).2 := by
  dsimp only [relock]
  split
  next hl =>
    split
    next hv =>
      split
      next => exact h
      next =>
        have hd : ({ st with deviceLocked := true, lockingDate := now } : Locking).deviceLocked =
            st.deviceLocked := hl.symm
        exact ⟨hd ▸ h.locker,hd ▸ h.counted,h.nonneg,h.bounded,h.reportable⟩
    next => exact h
  next => exact h

theorem sound_lockStatus (h : Sound st) : Sound (lockStatus dev now st).2 := by
  dsimp only [lockStatus]
  split
  next =>
    split
    next => split <;> exact h
    next => exact sound_basicUnlock false st
  next => exact h

theorem sound_checkLock (h : Sound st) (cl : ClientAddr) (meth : String) (cmd : Option String) :
    Sound (checkLock dev now cl meth cmd st).2 := by
  dsimp only [checkLock]
  split
  next =>
    split
    next => repeat' split
            all_goals exact h
    next => exact sound_basicUnlock false st
  next =>
    split
    next =>
      split
      next => exact h
      next => exact ⟨h.locker,h.counted,h.nonneg,h.bounded,h.reportable⟩
    next => exact h

theorem sound_step (h : Sound st) (c : Timed) (hf : Fits st c) : Sound (step dev st c) := by
  obtain ⟨now,call⟩ := c
  unfold step
  cases call with
  | lock cl validity => exact sound_lock h hf
  | relock cl => exact sound_relock h cl
  | unlock cl forced =>
    dsimp only [unlock]
    split
    next => exact h
    next => exact sound_countDown h forced
  | lockStatus => exact sound_lockStatus h
  | checkLock cl meth cmd => exact sound_checkLock h cl meth cmd

theorem sound_run (h : Sound st) (calls : List Timed) (hf : FitsRun dev st calls) :
    Sound (run dev st calls) := by
  induction calls generalizing st with
  | nil => exact h
  | cons c cs ih => exact ih (sound_step h c hf.1) hf.2

end Steps

section Nesting
variable {dev : Dev} {a : ClientAddr} {st : Locking}

theorem locksBy_cons (c : Timed) (cs : List Timed) :
    locksBy a (c::cs) = locksBy a [c] + locksBy a cs := by
  simp only [locksBy,List.countP_cons,List.countP_nil]
  omega

theorem unlocksBy_cons (c : Timed) (cs : List Timed) :
    unlocksBy a (c::cs) = unlocksBy a [c] + unlocksBy a cs := by
  simp only [unlocksBy,List.countP_cons,List.countP_nil]
  omega

theorem countDown_kept (h : 1 < st.lockCtr) :
    countDown false st = { st with lockCtr := st.lockCtr - 1 } := by
  have hd : decremented st = { st with lockCtr := st.lockCtr - 1 } := by
    unfold decremented
    rw [if_pos (by omega)]
  unfold countDown
  rw [hd,if_neg]
  simp only [Bool.false_eq_true,or_false]
  omega

theorem countDown_last (h : st.lockCtr = 1) : (countDown false st).deviceLocked = false := by
  unfold countDown decremented
  rw [h]
  rfl

variable (dev) in
/-- One call while the lock is valid, other than the unlock that gives it back. -/
theorem step_nested (hs : Sound st) (hl : LockedBy a st) (c : Timed) (hf : Fits st c)
    (hv : validLock c.now st = true) (hn : ∀ cl, c.call ≠ .unlock cl true)
    (hk : (unlocksBy a [c] : Int) < st.lockCtr + locksBy a [c]) :
    LockedBy a (step dev st c) ∧
      (step dev st c).lockCtr = st.lockCtr + locksBy a [c] - unlocksBy a [c] := by
  obtain ⟨now,call⟩ := c
  have hh : HeldBy now a st := ⟨hl,by simpa [validLock] using hv⟩
  unfold step
  cases call with
  | lock cl validity =>
    dsimp only
    rw [lock_held hh]
    cases he : cl.eq a with
    | false => simpa [locksBy,unlocksBy,he] using hl
    | true =>
      have hf' : st.lockCtr < maxDevLong := by
        have hf' : if st.deviceLocked ∧ validLock now st then
          notLocker cl st.lockerClient = false → st.lockCtr < maxDevLong else Reportable cl := hf
        rw [if_pos ⟨hl.1,hv⟩,hh.notLocker,he] at hf'
        exact hf' rfl
      have h0 := hs.nonneg
      rw [if_pos rfl]
      refine ⟨⟨rfl,by simp [takeLock,hl.2]⟩,?_⟩
      simp only [takeLock,locksBy,unlocksBy,List.countP_singleton,he]
      rw [devLong_of_mem (by omega) (by omega)]
      simp
  | relock cl =>
    dsimp only
    rw [relock_held hh]
    cases he : cl.eq a with
    | false => simpa [locksBy,unlocksBy] using hl
    | true => exact ⟨⟨rfl,hl.2⟩,by simp [locksBy,unlocksBy]⟩
  | unlock cl forced =>
    have hforced : forced = false := by
      cases forced with
      | false => rfl
      | true => exact absurd rfl (hn cl)
    subst hforced
    dsimp only
    rw [unlock_held hh]
    cases he : cl.eq a with
    | false => simpa [locksBy,unlocksBy,he] using hl
    | true =>
      simp only [locksBy,unlocksBy,List.countP_singleton,he] at hk
      rw [if_pos (Or.inr rfl),countDown_kept (by simpa using hk)]
      exact ⟨hl,by simp [locksBy,unlocksBy,he]⟩
  | lockStatus =>
    dsimp only
    rw [lockStatus_held hh]
    simpa [locksBy,unlocksBy] using hl
  | checkLock cl meth cmd =>
    dsimp only
    rw [checkLock_held hh]
    have hst : (if allowed dev cmd = false ∧ (cl.clientIdent = false ∨ cl.eq a = false) then
        ((.error (lockedException dev meth),st) : Except DevErrorList Unit × Locking)
        else (.ok (),st)).2 = st := by split <;> rfl
    simpa [hst,locksBy,unlocksBy] using hl

theorem run_nested (hs : Sound st) (hl : LockedBy a st) (calls : List Timed)
    (hf : FitsRun dev st calls) (hu : Unbroken dev st calls)
    (hk : ∀ p, p <+: calls → (unlocksBy a p : Int) < st.lockCtr + locksBy a p) :
    LockedBy a (run dev st calls) ∧
      (run dev st calls).lockCtr = st.lockCtr + locksBy a calls - unlocksBy a calls := by
  induction calls generalizing st with
  | nil => exact ⟨hl,by simp [run,locksBy,unlocksBy]⟩
  | cons c cs ih =>
    obtain ⟨hv,hn,hu'⟩ := hu
    have hc := hk [c] ⟨cs,rfl⟩
    obtain ⟨hl',hctr⟩ := step_nested dev hs hl c hf.1 hv hn hc
    have hk' : ∀ p, p <+: cs →
        (unlocksBy a p : Int) < (step dev st c).lockCtr + locksBy a p := by
      intro p hp
      have := hk (c::p) (List.cons_prefix_cons.mpr ⟨rfl,hp⟩)
      rw [locksBy_cons,unlocksBy_cons] at this
      rw [hctr]
      omega
    obtain ⟨hl2,hctr2⟩ := ih (sound_step hs c hf.1) hl' hf.2 hu' hk'
    refine ⟨hl2,?_⟩
    rw [locksBy_cons,unlocksBy_cons]
    rw [hctr] at hctr2
    have hr : (run dev st (c::cs)) = run dev (step dev st c) cs := rfl
    rw [hr,hctr2]
    push_cast
    omega

theorem nested_of_first (hs : Sound st) (hl : LockedBy a st) (h1 : st.lockCtr = 1) :
    Nested dev a 1 st where
  held := fun calls hf hu hk => by
    have h := run_nested hs hl calls hf hu (fun p hp => by
      have := hk p hp
      omega)
    rw [h1] at h
    exact h
  freed := fun calls hf hu hk he now => by
    obtain ⟨hl',hc⟩ := run_nested hs hl calls hf hu (fun p hp => by
      have := hk p hp
      omega)
    have hc1 : (run dev st calls).lockCtr = 1 := by omega
    have hn : notLocker a (run dev st calls).lockerClient = false := by
      rw [hl'.2,notLocker_some,eq_self]
      rfl
    have hst : step dev (run dev st calls) ⟨now,.unlock a false⟩ =
        countDown false (run dev st calls) := by
      simp [step,unlock,hn]
    rw [hst]
    exact countDown_last hc1

variable (dev a) in
theorem lock_first (hs : Sound st) {now : Int} (hfree : ∀ b, ¬ HeldBy now b st) (validity : Int) :
    LockedBy a (lock dev now a validity st).2 ∧ (lock dev now a validity st).2.lockCtr = 1 := by
  unfold lock
  split
  next hl =>
    obtain ⟨b,hb⟩ := Option.isSome_iff_exists.mp (hs.locker.mp hl)
    split
    next hv => exact absurd ⟨⟨hl,hb⟩,by simpa [validLock] using hv⟩ (hfree b)
    next => exact ⟨⟨rfl,rfl⟩,rfl⟩
  next hl =>
    obtain ⟨hn,hc⟩ := hs.free hl
    refine ⟨⟨rfl,by simp [takeLock,hn]⟩,?_⟩
    simp only [takeLock,hc]
    decide

end Nesting

section Main
variable (dev : Dev)

theorem fitsRun_append (st : Locking) (p q : List Timed) :
    FitsRun dev st (p ++ q) ↔ FitsRun dev st p ∧ FitsRun dev (run dev st p) q := by
  induction p generalizing st with
  | nil => simp [FitsRun,run]
  | cons c cs ih =>
    simp only [List.cons_append,FitsRun,ih,and_assoc]
    rfl

/-- In every run of calls that fit, a device is locked consistently, a valid lock keeps all
other clients out, and a client keeps its lock until it has given it back as often as it took
it. -/
theorem device_lock_excludes (calls : List Timed) (hf : FitsRun dev unlocked calls) :
    Consistent (run dev unlocked calls) ∧
    (∀ now a, HeldBy now a (run dev unlocked calls) →
      Excludes dev now a (run dev unlocked calls)) ∧
    (∀ before now a validity, calls = before ++ [⟨now,.lock a validity⟩] →
      (∀ b, ¬ HeldBy now b (run dev unlocked before)) →
      Nested dev a 1 (run dev unlocked calls)) := by
  have hs := sound_run sound_unlocked calls hf
  refine ⟨⟨hs.locker,hs.counted⟩,?_,?_⟩
  · intro now a h
    exact excludes_of_held h (hs.reportable a h.1.2)
  · intro before now a validity he hfree
    subst he
    have hb := sound_run sound_unlocked before ((fitsRun_append dev _ _ _).mp hf).1
    have hr : run dev unlocked (before ++ [⟨now,.lock a validity⟩]) =
        (lock dev now a validity (run dev unlocked before)).2 := by
      simp [run,step]
    obtain ⟨hl,h1⟩ := lock_first dev a hb hfree validity
    rw [← hr] at hl h1
    exact nested_of_first hs hl h1

end Main

section Unfit

def plainDev : Dev := ⟨"sys/tg_test/1",["state","status"],fun _ => none⟩

def cppClient : ClientAddr := ⟨true,"giop:tcp:10.0.0.1:4000",.cpp,4711,"",(0,0)⟩

def javaClient : ClientAddr := ⟨true,"giop:tcp:10.0.0.2:4001",.java6,0,"Main",(7,9)⟩

theorem device_lock_excludes_cpp :
    HeldBy 15 cppClient (run plainDev unlocked [⟨10,.lock cppClient 10⟩]) ∧
      Excludes plainDev 15 cppClient (run plainDev unlocked [⟨10,.lock cppClient 10⟩]) := by
  have hf : FitsRun plainDev unlocked [⟨10,.lock cppClient 10⟩] := by
    refine ⟨?_,trivial⟩
    intro h
    cases h
  have hh : HeldBy 15 cppClient (run plainDev unlocked [⟨10,.lock cppClient 10⟩]) :=
    ⟨⟨rfl,rfl⟩,by decide⟩
  exact ⟨hh,(device_lock_excludes plainDev _ hf).2.1 15 cppClient hh⟩

/-- A Java client of IDL 6 holds a valid lock and is not reported. -/
theorem java6_locker_not_reported :
    HeldBy 15 javaClient (run plainDev unlocked [⟨10,.lock javaClient 10⟩]) ∧
      ¬ Reports javaClient
        (lockStatus plainDev 15 (run plainDev unlocked [⟨10,.lock javaClient 10⟩])).1 := by
  have hh : HeldBy 15 javaClient (run plainDev unlocked [⟨10,.lock javaClient 10⟩]) :=
    ⟨⟨rfl,rfl⟩,by decide⟩
  refine ⟨hh,?_⟩
  rw [lockStatus_held hh]
  intro h
  have hu : [0,0,0,0] = uuidLongs (7,9) := h.2.2.1
  exact absurd hu (by decide)

end Unfit

end CppTango.Device.Lock
