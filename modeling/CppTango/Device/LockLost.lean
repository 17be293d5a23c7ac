import CppTango.Device.LockSpec
import Mathlib.Data.List.Induction

namespace CppTango.Device.Lock

section Clients
variable {a b c : ClientAddr}

/-- What `operator==` compares: the process and its address, or the identifier of the Java virtual machine. -/
def ClientAddr.key (c : ClientAddr) : Bool × LockerLanguage × ((Int × String) ⊕ (UInt64 × UInt64)) :=
  (c.clientIdent,c.clientLang,
    if c.clientLang = .cpp ∨ c.clientLang = .cpp6 then .inl (c.clientPid,c.clientIp) else .inr c.javaIdent)

theorem eq_iff_key : a.eq b = true ↔ a.key = b.key := by
  unfold ClientAddr.eq ClientAddr.key
  by_cases hi : a.clientIdent = b.clientIdent
  · by_cases hl : a.clientLang = b.clientLang
    · by_cases hc : b.clientLang = .cpp ∨ b.clientLang = .cpp6
      · rw [hi,hl,if_neg (not_not.mpr rfl),if_neg (not_not.mpr rfl),if_pos hc,if_pos hc,if_pos hc]
        simp only [Prod.mk.injEq,Sum.inl.injEq,true_and]
        by_cases hip : a.clientIp = b.clientIp
        · rw [hip]
          simp
        · repeat' split
          all_goals simp_all
      · rw [hi,hl,if_neg (not_not.mpr rfl),if_neg (not_not.mpr rfl),if_neg hc,if_neg hc,if_neg hc]
        simp only [Sum.inr.injEq,true_and,Prod.ext_iff]
        repeat' split
        all_goals simp_all
    · simp [hi,hl]
  · simp [hi]

theorem eq_left (hb : c.eq b = true) (ha : c.eq a = true) : b.eq a = true :=
  eq_iff_key.mpr ((eq_iff_key.mp hb).symm.trans (eq_iff_key.mp ha))

end Clients

section Spec
variable (dev : Dev)

/-- The device is locked for the client, whether the lock has run out or not. -/
def Holds (c : ClientAddr) (st : Locking) : Prop := ∃ a, LockedBy a st ∧ c.eq a = true

/-- Another client's forced unlock met a lock of the client that had not run out, and the client has held
none since. -/
def Lost (c : ClientAddr) (calls : List Timed) : Prop :=
  ∃ before after t cl a, calls = before ++ ⟨t,.unlock cl true⟩ :: after ∧
    HeldBy t a (run dev unlocked before) ∧ c.eq a = true ∧ cl.eq a = false ∧
    ∀ p, p <+: after → ¬Holds c (run dev unlocked (before ++ ⟨t,.unlock cl true⟩ :: p))

/-- The client that a forced unlock has been remembered of. -/
def Remembered (c : ClientAddr) (st : Locking) : Prop := ∃ old, st.oldLockerClient = some old ∧ old.eq c = true

/-- A call by which a lock of `a` ends otherwise: its last unlock, or a call that finds it run out. -/
def Ends (st : Locking) (c : Timed) (a : ClientAddr) : Prop :=
  match c.call with
  | .lock cl _ => validLock c.now st = false ∧ cl.eq a = false
  | .relock _ => False
  | .unlock cl forced => forced = false ∧ (validLock c.now st = true → cl.eq a = true) ∧ st.lockCtr ≤ 1
  | .lockStatus | .checkLock .. => validLock c.now st = false

/-- A forced unlock takes a lock that is valid from another client; a lock that ends otherwise is not one of
the client that is remembered. -/
def Forgotten (st : Locking) (c : Timed) : Prop :=
  ∀ a, LockedBy a st → (Ends st c a → ¬Remembered a st) ∧
    ∀ cl, c.call = .unlock cl true → validLock c.now st = true ∧ cl.eq a = false

def ForgottenRun : Locking → List Timed → Prop
  | _,[] => True
  | st,c::cs => Forgotten st c ∧ ForgottenRun (step dev st c) cs

end Spec

section Steps
variable {dev : Dev} {st st' : Locking} {c : Timed} {a : ClientAddr}

def Matched (st : Locking) : Prop := st.deviceLocked = true ↔ st.lockerClient.isSome = true

/-- What a call does to the three pointers of the lock. -/
inductive Moved (st : Locking) (c : Timed) (st' : Locking) : Prop
  | kept (hl : st'.deviceLocked = st.deviceLocked) (hc : st'.lockerClient = st.lockerClient)
    (ho : st'.oldLockerClient = st.oldLockerClient)
  | taken (cl : ClientAddr) (hl : LockedBy cl st') (ho : st'.oldLockerClient = st.oldLockerClient)
    (he : ∀ a, LockedBy a st → cl.eq a = true ∨ Ends st c a)
  | ended (hl : st'.deviceLocked = false) (hc : st'.lockerClient = none)
    (ho : st'.oldLockerClient = st.oldLockerClient) (he : ∀ a, LockedBy a st → Ends st c a)
  | forced (cl : ClientAddr) (hcall : c.call = .unlock cl true) (hl : st'.deviceLocked = false)
    (hc : st'.lockerClient = none) (ho : st'.oldLockerClient = st.lockerClient)
  | cleared (hl : st'.deviceLocked = false) (hc : st'.lockerClient = none) (ho : st'.oldLockerClient = none)
    (hfree : st.deviceLocked = false)

theorem free_locker (hm : Matched st) (hl : st.deviceLocked = false) : st.lockerClient = none := by
  cases hc : st.lockerClient with
  | none => rfl
  | some a =>
    have hlocked := hm.mpr (hc ▸ rfl)
    exact Bool.noConfusion (hl.symm.trans hlocked)

theorem lock_moved (hm : Matched st) {now validity : Int} {cl : ClientAddr} :
    Moved st ⟨now,.lock cl validity⟩ (lock dev now cl validity st).2 := by
  unfold lock
  split
  next hl =>
    split
    next hv =>
      split
      next => exact .kept rfl rfl rfl
      next =>
        obtain ⟨a,ha⟩ := Option.isSome_iff_exists.mp (hm.mp hl)
        exact .kept hl.symm (by simp [takeLock,ha]) rfl
    next hv =>
      refine .taken cl ⟨rfl,rfl⟩ rfl (fun a ha => ?_)
      cases he : cl.eq a with
      | true => exact Or.inl rfl
      | false => exact Or.inr ⟨Bool.eq_false_iff.mpr hv,he⟩
  next hl =>
    have hnone := free_locker hm (Bool.eq_false_iff.mpr hl)
    exact .taken cl ⟨rfl,by simp [takeLock,hnone]⟩ rfl (fun a ha => absurd ha.1 hl)

theorem relock_moved {now : Int} {cl : ClientAddr} : Moved st ⟨now,.relock cl⟩ (relock dev now cl st).2 := by
  unfold relock
  split
  next hl =>
    split
    next =>
      split
      next => exact .kept rfl rfl rfl
      next => exact .kept hl.symm rfl rfl
    next => exact .kept rfl rfl rfl
  next => exact .kept rfl rfl rfl

theorem unlock_moved {now : Int} {cl : ClientAddr} {forced : Bool} :
    Moved st ⟨now,.unlock cl forced⟩ (unlock dev now cl forced st).2 := by
  unfold unlock countDown
  split
  next => exact .kept rfl rfl rfl
  next hmay =>
    dsimp only
    split
    next hzero =>
      cases forced with
      | true => exact .forced cl rfl rfl rfl rfl
      | false =>
        refine .ended rfl rfl rfl (fun a ha => ⟨rfl,fun hv => ?_,?_⟩)
        · cases he : cl.eq a with
          | true => rfl
          | false =>
            refine absurd ⟨ha.1,hv,Bool.false_ne_true,?_⟩ hmay
            rw [ha.2,notLocker_some,he]
            rfl
        · have hctr : (decremented st).lockCtr ≤ 0 := hzero.resolve_right Bool.false_ne_true
          unfold decremented at hctr
          dsimp only at hctr
          split at hctr <;> omega
    next => exact .kept rfl rfl rfl

theorem lockStatus_moved {now : Int} : Moved st ⟨now,.lockStatus⟩ (lockStatus dev now st).2 := by
  unfold lockStatus
  split
  next =>
    split
    next => split <;> exact .kept rfl rfl rfl
    next hv => exact .ended rfl rfl rfl (fun _ _ => Bool.eq_false_iff.mpr hv)
  next => exact .kept rfl rfl rfl

theorem checkLock_moved (hm : Matched st) {now : Int} {cl : ClientAddr} {meth : String} {cmd : Option String} :
    Moved st ⟨now,.checkLock cl meth cmd⟩ (checkLock dev now cl meth cmd st).2 := by
  unfold checkLock
  split
  next =>
    split
    next =>
      repeat' split
      all_goals exact .kept rfl rfl rfl
    next hv => exact .ended rfl rfl rfl (fun _ _ => Bool.eq_false_iff.mpr hv)
  next hl =>
    have hfree := Bool.eq_false_iff.mpr hl
    split
    next =>
      split
      next => exact .kept rfl rfl rfl
      next => exact .cleared hfree (free_locker hm hfree) rfl hfree
    next => exact .kept rfl rfl rfl

theorem step_moved (hm : Matched st) (c : Timed) : Moved st c (step dev st c) := by
  obtain ⟨now,call⟩ := c
  unfold step
  cases call with
  | lock cl validity => exact lock_moved hm
  | relock cl => exact relock_moved
  | unlock cl forced => exact unlock_moved
  | lockStatus => exact lockStatus_moved
  | checkLock cl meth cmd => exact checkLock_moved hm

theorem matched_step (hm : Matched st) (c : Timed) : Matched (step dev st c) := by
  unfold Matched at hm ⊢
  cases @step_moved dev _ hm c with
  | kept hl hc => rw [hl,hc,hm]
  | taken cl hl => rw [hl.1,hl.2]; simp
  | ended hl hc => rw [hl,hc]; simp
  | forced cl _ hl hc => rw [hl,hc]; simp
  | cleared hl hc => rw [hl,hc]; simp

end Steps

section Main
variable {dev : Dev} {st : Locking} {calls : List Timed} {c : ClientAddr}

theorem run_concat (call : Timed) : run dev st (calls ++ [call]) = step dev (run dev st calls) call :=
  List.foldl_concat ..

theorem Lost.concat {call : Timed} (h : Lost dev c calls)
    (hn : ¬Holds c (run dev unlocked (calls ++ [call]))) : Lost dev c (calls ++ [call]) := by
  obtain ⟨before,after,t,cl,a,rfl,hheld,hc,hcl,hfree⟩ := h
  rw [List.append_assoc,List.cons_append] at hn ⊢
  refine ⟨before,after ++ [call],t,cl,a,rfl,hheld,hc,hcl,fun p hp => ?_⟩
  rcases List.prefix_concat_iff.mp hp with rfl | hp
  · exact hn
  · exact hfree p hp

theorem not_holds (hl : st.deviceLocked = false) : ¬Holds c st := fun ⟨_,ha,_⟩ =>
  Bool.noConfusion (hl.symm.trans ha.1)

/-- A client that is remembered lost its last lock, or holds one again. -/
structure Accounted (dev : Dev) (calls : List Timed) : Prop where
  locker : Matched (run dev unlocked calls)
  loser : ∀ c old, (run dev unlocked calls).oldLockerClient = some old → c.eq old = true →
    Lost dev c calls ∨ Holds c (run dev unlocked calls)

theorem Accounted.step {call : Timed} (h : Accounted dev calls)
    (hf : Forgotten (run dev unlocked calls) call) : Accounted dev (calls ++ [call]) := by
  have hmove := @step_moved dev _ h.locker call
  refine ⟨run_concat call ▸ matched_step h.locker call,fun c old hold hc => ?_⟩
  by_cases hh : Holds c (run dev unlocked (calls ++ [call]))
  · exact Or.inr hh
  left
  have hn := hh
  rw [run_concat] at hold hn
  -- no lock of a remembered client ends otherwise
  have hlost : (Lock.run dev unlocked calls).oldLockerClient = some old →
      (∀ a, LockedBy a (Lock.run dev unlocked calls) → c.eq a = true → Ends (Lock.run dev unlocked calls) call a) →
      Lost dev c (calls ++ [call]) := fun ho he => by
    rcases h.loser c old ho hc with hl | ⟨a,ha,hca⟩
    · exact hl.concat hh
    · exact absurd ⟨old,ho,eq_left hc hca⟩ ((hf a ha).1 (he a ha hca))
  cases hmove with
  | kept hl hlc ho =>
    refine hlost (ho ▸ hold) (fun a ha hca => absurd ⟨a,?_,hca⟩ hn)
    exact ⟨hl.trans ha.1,hlc.trans ha.2⟩
  | taken cl hl ho he =>
    refine hlost (ho ▸ hold) (fun a ha hca => (he a ha).resolve_left (fun hcl => hn ⟨cl,hl,?_⟩))
    exact eq_iff_key.mpr ((eq_iff_key.mp hca).trans (eq_iff_key.mp hcl).symm)
  | ended hl hlc ho he => exact hlost (ho ▸ hold) (fun a ha _ => he a ha)
  | forced cl hcall hl hlc ho =>
    have hlocker := ho.symm.trans hold
    have hby : LockedBy old (Lock.run dev unlocked calls) := ⟨h.locker.mpr (hlocker ▸ rfl),hlocker⟩
    obtain ⟨hv,hcl⟩ := (hf old hby).2 cl hcall
    obtain ⟨now,_⟩ := call
    cases hcall
    refine ⟨calls,[],now,cl,old,rfl,⟨hby,by simpa [validLock] using hv⟩,hc,hcl,fun p hp => ?_⟩
    rw [List.prefix_nil.mp hp]
    exact hh
  | cleared hl hlc ho => cases ho.symm.trans hold

theorem forgottenRun_append (st : Locking) (p q : List Timed) :
    ForgottenRun dev st (p ++ q) ↔ ForgottenRun dev st p ∧ ForgottenRun dev (run dev st p) q := by
  induction p generalizing st with
  | nil => simp [ForgottenRun,run]
  | cons c cs ih =>
    simp only [List.cons_append,ForgottenRun,ih,and_assoc]
    rfl

theorem accounted_run (hf : ForgottenRun dev unlocked calls) : Accounted dev calls := by
  induction calls using List.reverseRecOn with
  | nil => exact ⟨by simp [Matched,run,unlocked],fun c old hold => nomatch hold⟩
  | append_singleton calls call ih =>
    obtain ⟨hbefore,hcall,-⟩ := (forgottenRun_append unlocked calls [call]).mp hf
    exact (ih hbefore).step hcall

theorem checkLock_unlocked {now : Int} {meth : String} {cmd : Option String} {e : DevErrorList} {st' : Locking}
    (h : checkLock dev now c meth cmd st = (.error e,st')) (he : e.map DevError.reason = ["API_DeviceUnlocked"]) :
    st.deviceLocked = false ∧ ∃ old, st.oldLockerClient = some old ∧ c.eq old = true := by
  unfold checkLock at h
  have hother : lockedException dev meth ≠ e := fun heq => by
    rw [← heq] at he
    exact absurd he (by simp [lockedException,thrown])
  split at h
  · split at h
    · repeat' split at h
      all_goals cases h
      all_goals exact absurd rfl hother
    · cases h
  · rename_i hl
    refine ⟨Bool.eq_false_iff.mpr hl,?_⟩
    split at h
    · rename_i old hold
      split at h
      · rename_i hc
        exact ⟨old,hold,hc⟩
      · cases h
    · cases h

/-- In a run of such calls the error about an unlocked device goes to clients that lost their lock only. -/
theorem unlocked_told_to_loser {now : Int} {meth : String} {cmd : Option String} {e : DevErrorList}
    {st' : Locking} (hf : ForgottenRun dev unlocked calls)
    (h : checkLock dev now c meth cmd (run dev unlocked calls) = (.error e,st'))
    (he : e.map DevError.reason = ["API_DeviceUnlocked"]) :
    (run dev unlocked calls).deviceLocked = false ∧ Lost dev c calls := by
  obtain ⟨hl,old,hold,hc⟩ := checkLock_unlocked h he
  exact ⟨hl,((accounted_run hf).loser c old hold hc).resolve_right (not_holds hl)⟩

def adminClient : ClientAddr := ⟨true,"giop:tcp:10.0.0.9:4000",.cpp,99,"",(0,0)⟩

/-- A lock that is taken away. -/
def takenAway : List Timed := [⟨10,.lock cppClient 10⟩,⟨12,.unlock adminClient true⟩]

theorem unlocked_told_to_cpp : ∃ e st',
    checkLock plainDev 13 cppClient "write_attribute" none (run plainDev unlocked takenAway) = (.error e,st') ∧
      (run plainDev unlocked takenAway).deviceLocked = false ∧ Lost plainDev cppClient takenAway := by
  have hf : ForgottenRun plainDev unlocked takenAway := by
    refine ⟨fun a ha => ?_,fun a ha => ?_,trivial⟩
    · cases ha.1
    · cases ha.2
      exact ⟨fun he => Bool.noConfusion he.1,fun cl hcl => by cases hcl; decide⟩
  exact ⟨_,_,rfl,@unlocked_told_to_loser plainDev takenAway cppClient 13 "write_attribute" none _ _ hf rfl rfl⟩

/-- The lock is taken away, taken again and given back; the client is told that it was taken away. -/
def takenAgain : List Timed := takenAway ++ [⟨14,.lock cppClient 10⟩,⟨15,.unlock cppClient false⟩]

theorem unlocked_told_to_unlocker : ∃ e st',
    checkLock plainDev 16 cppClient "write_attribute" none (run plainDev unlocked takenAgain) = (.error e,st') ∧
      e.map DevError.reason = ["API_DeviceUnlocked"] ∧ ¬Lost plainDev cppClient takenAgain := by
  refine ⟨_,_,rfl,rfl,?_⟩
  rintro ⟨before,after,t,cl,a,he,-,-,-,hfree⟩
  -- the forced unlock is the second call, and the third is a lock of the client
  have hsplit : before = [⟨10,.lock cppClient 10⟩] ∧
      after = [⟨14,.lock cppClient 10⟩,⟨15,.unlock cppClient false⟩] ∧ t = 12 ∧ cl = adminClient := by
    simp [takenAgain,takenAway,List.cons_eq_append_iff] at he
    tauto
  obtain ⟨rfl,rfl,rfl,rfl⟩ := hsplit
  exact hfree [⟨14,.lock cppClient 10⟩] ⟨_,rfl⟩ ⟨cppClient,⟨rfl,rfl⟩,eq_self cppClient⟩

end Main

end CppTango.Device.Lock
