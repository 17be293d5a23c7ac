import CppTango.Client.LockThread

namespace CppTango.Client.Locking

section Erased
variable {names : List String} {ds : List LockedDevice} {name : String}

/-- The devices that are left after errors about `names`. -/
def erased (names : List String) (ds : List LockedDevice) : List LockedDevice :=
  names.foldl (fun ds name => ds.eraseP (fun d => d.devName.toLower == name.toLower)) ds

/-- No two devices have one name in two letter cases. -/
def Distinct (ds : List LockedDevice) : Prop := (ds.map (·.devName.toLower)).Nodup

def Listed (name : String) (ds : List LockedDevice) : Prop := ∃ d ∈ ds, d.devName.toLower = name.toLower

theorem erased_cons : erased (name :: names) ds =
    erased names (ds.eraseP (fun d => d.devName.toLower == name.toLower)) := rfl

theorem erased_sublist : (erased names ds).Sublist ds := by
  induction names generalizing ds with
  | nil => exact List.Sublist.refl ds
  | cons name names ih => exact ih.trans List.eraseP_sublist

theorem listed_of_sublist {ds' : List LockedDevice} (hs : ds'.Sublist ds) (h : Listed name ds') :
    Listed name ds := by
  obtain ⟨d,hd,hn⟩ := h
  exact ⟨d,hs.subset hd,hn⟩

theorem eraseP_unlisted (h : ¬Listed name ds) :
    ds.eraseP (fun d => d.devName.toLower == name.toLower) = ds := by
  refine List.eraseP_of_forall_not (fun d hd => ?_)
  rw [beq_iff_eq]
  exact fun hn => h ⟨d,hd,hn⟩

theorem erased_unlisted (h : ∀ n ∈ names, ¬Listed n ds) : erased names ds = ds := by
  induction names with
  | nil => rfl
  | cons name names ih =>
    rw [erased_cons,eraseP_unlisted (h name List.mem_cons_self)]
    exact ih (fun n hn => h n (List.mem_cons_of_mem name hn))

theorem erased_shorter (h : ∃ n ∈ names, Listed n ds) : (erased names ds).length < ds.length := by
  induction names with
  | nil => simp at h
  | cons name names ih =>
    rw [erased_cons]
    by_cases hl : Listed name ds
    · obtain ⟨d,hd,hn⟩ := hl
      have hone := List.length_eraseP_of_mem (p := fun d => d.devName.toLower == name.toLower) hd
        (beq_iff_eq.mpr hn)
      have hpos := List.length_pos_of_mem hd
      refine Nat.lt_of_le_of_lt erased_sublist.length_le ?_
      omega
    · rw [eraseP_unlisted hl]
      obtain ⟨n,hn,hln⟩ := h
      rcases List.mem_cons.mp hn with rfl | hn
      · exact absurd hln hl
      · exact ih ⟨n,hn,hln⟩

theorem Distinct.sublist {ds' : List LockedDevice} (h : Distinct ds) (hs : ds'.Sublist ds) : Distinct ds' :=
  List.Nodup.sublist (hs.map _) h

theorem not_listed_eraseP (h : Distinct ds) :
    ¬Listed name (ds.eraseP (fun d => d.devName.toLower == name.toLower)) := by
  induction ds with
  | nil => rintro ⟨d,hd,-⟩; cases hd
  | cons d ds ih =>
    obtain ⟨hd,hds⟩ := List.nodup_cons.mp h
    rw [List.eraseP_cons]
    cases hn : d.devName.toLower == name.toLower with
    | true =>
      rintro ⟨e,he,hen⟩
      exact hd (List.mem_map.mpr ⟨e,he,hen.trans (beq_iff_eq.mp hn).symm⟩)
    | false =>
      rintro ⟨e,he,hen⟩
      rcases List.mem_cons.mp he with rfl | he
      · exact Bool.noConfusion (hn.symm.trans (beq_iff_eq.mpr hen))
      · exact ih hds ⟨e,he,hen⟩

theorem not_listed_erased (h : Distinct ds) (hn : name ∈ names) : ¬Listed name (erased names ds) := by
  induction names generalizing ds with
  | nil => cases hn
  | cons n names ih =>
    rcases List.mem_cons.mp hn with rfl | hn
    · exact fun hl => not_listed_eraseP h (listed_of_sublist erased_sublist hl)
    · exact ih (h.sublist List.eraseP_sublist) hn

end Erased

section Turns
variable {th : LockThread} {errors : DevErrorList} {name : String} {validity : Int}

/-- A turn of the loop of `run` at some time; `errors` is how the server answers the request. -/
inductive Turn
  | addDev (now : Int) (name : String) (validity : Int)
  | remDev (now : Int) (name : String)
  | oneMoreLock (now : Int) (errors : DevErrorList)
deriving DecidableEq, Repr

def turn (th : LockThread) : Turn → LockThread
  | .addDev now name validity => computeSleepTime true now (addDev name validity th)
  | .remDev now name => computeSleepTime true now (remDev name th)
  | .oneMoreLock now errors => computeSleepTime false now (oneMoreLock errors th).2

def turns (th : LockThread) (ts : List Turn) : LockThread := ts.foldl turn th

/-- The thread exits with its last device. -/
def Running : LockThread → List Turn → Prop
  | _,[] => True
  | th,t::ts => th.lockedDevices ≠ [] ∧ Running (turn th t) ts

def names (th : LockThread) : List String := th.lockedDevices.map (·.devName)

/-- The argument of the request, whatever the answer. -/
def sent (th : LockThread) : List String := (oneMoreLock [] th).1

/-- Every request names the devices that are listed when it is sent. -/
def SendsNames : LockThread → List Turn → Prop
  | _,[] => True
  | th,t::ts => (∀ now errors, t = .oneMoreLock now errors → sent th = names th) ∧ SendsNames (turn th t) ts

/-- The server refuses to re-lock a listed device. -/
def Refuses (errors : DevErrorList) (th : LockThread) : Prop :=
  ∃ n ∈ errors.filterMap refusedDevice, Listed n th.lockedDevices

def IsRequest (t : Turn) : Prop := ∃ now errors, t = .oneMoreLock now errors

/-- After a refusal the next turn is a command. -/
def CommandNext : LockThread → List Turn → Prop
  | _,[] => True
  | th,t::ts => (∀ now errors, t = .oneMoreLock now errors → Refuses errors th →
      ∀ t' ∈ ts.head?, ¬IsRequest t') ∧ CommandNext (turn th t) ts

@[simp] theorem computeSleepTime_args (cmd : Bool) (now : Int) :
    (computeSleepTime cmd now th).reLockCmdArgs = th.reLockCmdArgs := by
  unfold computeSleepTime
  repeat' split
  all_goals rfl

@[simp] theorem computeSleepTime_devices (cmd : Bool) (now : Int) :
    (computeSleepTime cmd now th).lockedDevices = th.lockedDevices := by
  unfold computeSleepTime
  repeat' split
  all_goals rfl

theorem oneMoreLock_devices : (oneMoreLock errors th).2.lockedDevices =
    erased (errors.filterMap refusedDevice) th.lockedDevices := rfl

theorem oneMoreLock_args : (oneMoreLock errors th).2.reLockCmdArgs = sent th := rfl

/-- The cache is empty or right. -/
def FreshArgs (th : LockThread) : Prop := th.reLockCmdArgs = [] ∨ th.reLockCmdArgs = names th

theorem FreshArgs.sent (h : FreshArgs th) : sent th = names th := by
  unfold Locking.sent oneMoreLock
  dsimp only
  rcases h with h | h
  · rw [if_pos h]
    rfl
  · split
    · rfl
    · exact h

theorem updateThPeriod_args : (updateThPeriod th).reLockCmdArgs = [] := by
  unfold updateThPeriod
  split <;> rfl

theorem fresh_addDev {now : Int} : FreshArgs (turn th (.addDev now name validity)) := by
  refine Or.inl ?_
  rw [turn,computeSleepTime_args,addDev,updateThPeriod_args]

theorem fresh_remDev {now : Int} : FreshArgs (turn th (.remDev now name)) ∨
    (turn th (.remDev now name)).lockedDevices = [] := by
  rw [turn,computeSleepTime_devices]
  unfold FreshArgs
  rw [computeSleepTime_args]
  unfold remDev
  dsimp only
  split
  · rename_i h
    exact Or.inr h
  · exact Or.inl (Or.inl updateThPeriod_args)

/-- An answer leaves the cache right if it refuses no device, -/
theorem fresh_oneMoreLock {now : Int} (h : FreshArgs th) (hr : ¬Refuses errors th) :
    FreshArgs (turn th (.oneMoreLock now errors)) := by
  refine Or.inr ?_
  have hdevices : erased (errors.filterMap refusedDevice) th.lockedDevices = th.lockedDevices :=
    erased_unlisted (fun n hn hl => hr ⟨n,hn,hl⟩)
  unfold names
  rw [turn,computeSleepTime_args,computeSleepTime_devices,oneMoreLock_args,oneMoreLock_devices,hdevices]
  exact h.sent

/-- and else the next request is wrong. -/
theorem stale_oneMoreLock {now : Int} (h : FreshArgs th) (hr : Refuses errors th) :
    sent (turn th (.oneMoreLock now errors)) ≠ names (turn th (.oneMoreLock now errors)) := by
  intro he
  have hlen := erased_shorter hr
  have hargs : (turn th (.oneMoreLock now errors)).reLockCmdArgs = names th := by
    rw [turn,computeSleepTime_args,oneMoreLock_args,h.sent]
  have hnames : names (turn th (.oneMoreLock now errors)) =
      (erased (errors.filterMap refusedDevice) th.lockedDevices).map (·.devName) := by
    rw [names,turn,computeSleepTime_devices,oneMoreLock_devices]
  have hne : names th ≠ [] := by
    intro hnil
    rw [List.map_eq_nil_iff.mp hnil] at hlen
    exact absurd hlen (Nat.not_lt_zero _)
  have hsent : sent (turn th (.oneMoreLock now errors)) = names th := by
    unfold sent oneMoreLock
    dsimp only
    rw [hargs,if_neg hne]
  rw [hsent,hnames] at he
  have hle := congrArg List.length he
  rw [names,List.length_map,List.length_map] at hle
  omega

/-- A request that is wrong comes right after a refusal. -/
theorem sends_names_iff {ts : List Turn} (hr : Running th ts)
    (h : FreshArgs th ∨ ∀ t ∈ ts.head?, ¬IsRequest t) : SendsNames th ts ↔ CommandNext th ts := by
  induction ts generalizing th with
  | nil => exact iff_of_true trivial trivial
  | cons t ts ih =>
    obtain ⟨-,hrun⟩ := hr
    cases t with
    | addDev now name validity =>
      have hrest := ih hrun (Or.inl fresh_addDev)
      simp only [SendsNames,CommandNext,reduceCtorEq,false_implies,implies_true,true_and,hrest]
    | remDev now name =>
      have hfresh : FreshArgs (turn th (.remDev now name)) ∨ ∀ t ∈ ts.head?, ¬IsRequest t := by
        rcases (fresh_remDev : FreshArgs (turn th (.remDev now name)) ∨ _) with hf | he
        · exact Or.inl hf
        · cases ts with
          | nil => exact Or.inr (fun t ht => nomatch ht)
          | cons t ts => exact absurd he hrun.1
      have hrest := ih hrun hfresh
      simp only [SendsNames,CommandNext,reduceCtorEq,false_implies,implies_true,true_and,hrest]
    | oneMoreLock now errors =>
      have hf : FreshArgs th := h.resolve_right (fun hno => hno _ rfl ⟨now,errors,rfl⟩)
      by_cases href : Refuses errors th
      · by_cases hno : ∀ t ∈ ts.head?, ¬IsRequest t
        · have hrest := ih hrun (Or.inr hno)
          simp only [SendsNames,CommandNext,hrest]
          exact and_congr_left (fun _ => iff_of_true (fun _ _ _ => hf.sent) (fun _ _ _ _ => hno))
        · refine iff_of_false ?_ (fun hc => hno (hc.1 now errors rfl href))
          rintro ⟨-,hsend⟩
          cases ts with
          | nil => exact hno (fun t ht => nomatch ht)
          | cons t ts =>
            refine hno (fun t' ht hreq => ?_)
            cases ht
            obtain ⟨now',errors',hreq⟩ := hreq
            exact stale_oneMoreLock hf href (hsend.1 now' errors' hreq)
      · have hrest := ih hrun (Or.inl (fresh_oneMoreLock hf href))
        simp only [SendsNames,CommandNext,hrest]
        refine and_congr_left (fun _ => iff_of_true (fun _ _ _ => hf.sent) (fun now' errors' he hr' => ?_))
        cases he
        exact absurd hr' href

end Turns

section Again
variable {th : LockThread} {ts : List Turn} {name : String}

/-- A device is added under one letter case. -/
def OneCase : LockThread → List Turn → Prop
  | _,[] => True
  | th,t::ts => (∀ now name validity, t = .addDev now name validity →
      ∀ d ∈ th.lockedDevices, d.devName.toLower = name.toLower → d.devName = name) ∧ OneCase (turn th t) ts

/-- A device that the server reports is not sent again before it is added again. -/
def NotSentAgain (th : LockThread) (ts : List Turn) : Prop :=
  ∀ before now errors between now' errors' after,
    ts = before ++ .oneMoreLock now errors :: (between ++ .oneMoreLock now' errors' :: after) →
    ∀ n ∈ errors.filterMap refusedDevice,
      (∀ now name validity, .addDev now name validity ∈ between → name.toLower ≠ n.toLower) →
      ∀ m ∈ sent (turns th (before ++ .oneMoreLock now errors :: between)), m.toLower ≠ n.toLower

theorem turn_sublist {t : Turn} (h : ∀ now name validity, t ≠ .addDev now name validity) :
    (turn th t).lockedDevices.Sublist th.lockedDevices := by
  cases t with
  | addDev now name validity => exact absurd rfl (h now name validity)
  | remDev now name =>
    rw [turn,computeSleepTime_devices,remDev_devices]
    exact List.eraseP_sublist
  | oneMoreLock now errors =>
    rw [turn,computeSleepTime_devices,oneMoreLock_devices]
    exact erased_sublist

theorem distinct_addDev {now validity : Int} (h : Distinct th.lockedDevices)
    (hcase : ∀ d ∈ th.lockedDevices, d.devName.toLower = name.toLower → d.devName = name) :
    Distinct (turn th (.addDev now name validity)).lockedDevices := by
  rw [turn,computeSleepTime_devices,addDev,updateThPeriod_devices]
  split
  · exact h
  · rename_i hno
    unfold Distinct
    rw [List.map_append]
    refine List.nodup_append.mpr ⟨h,by simp,fun x hx y hy hxy => hno ?_⟩
    obtain ⟨d,hd,rfl⟩ := List.mem_map.mp hx
    rw [List.mem_singleton.mp hy] at hxy
    exact List.any_eq_true.mpr ⟨d,hd,beq_iff_eq.mpr (hcase d hd hxy)⟩

theorem distinct_turns (h : Distinct th.lockedDevices) (hcase : OneCase th ts) :
    Distinct (turns th ts).lockedDevices := by
  induction ts generalizing th with
  | nil => exact h
  | cons t ts ih =>
    refine ih ?_ hcase.2
    cases t with
    | addDev now name validity => exact distinct_addDev h (hcase.1 now name validity rfl)
    | remDev | oneMoreLock => exact h.sublist (turn_sublist (by simp))

theorem listed_turn {t : Turn} (ht : ∀ now m validity, t = .addDev now m validity → m.toLower ≠ name.toLower)
    (h : Listed name (turn th t).lockedDevices) : Listed name th.lockedDevices := by
  cases t with
  | addDev now m validity =>
    obtain ⟨d,hd,hn⟩ := h
    rw [turn,computeSleepTime_devices] at hd
    rcases addDev_devices d hd with hd | ⟨rfl,-⟩
    · exact ⟨d,hd,hn⟩
    · exact absurd hn (ht now m validity rfl)
  | remDev | oneMoreLock => exact listed_of_sublist (turn_sublist (by simp)) h

theorem listed_turns (ht : ∀ now m validity, .addDev now m validity ∈ ts → m.toLower ≠ name.toLower)
    (h : Listed name (turns th ts).lockedDevices) : Listed name th.lockedDevices := by
  induction ts generalizing th with
  | nil => exact h
  | cons t ts ih =>
    refine listed_turn (fun now m validity he => ht now m validity (he ▸ List.mem_cons_self)) ?_
    exact ih (fun now m validity he => ht now m validity (List.mem_cons_of_mem t he)) h

theorem turns_append (p q : List Turn) : turns th (p ++ q) = turns (turns th p) q := List.foldl_append ..

theorem oneCase_append (p q : List Turn) : OneCase th (p ++ q) ↔ OneCase th p ∧ OneCase (turns th p) q := by
  induction p generalizing th with
  | nil => simp [OneCase,turns]
  | cons t p ih =>
    simp only [List.cons_append,OneCase,ih,and_assoc]
    rfl

theorem sendsNames_append (p q : List Turn) :
    SendsNames th (p ++ q) ↔ SendsNames th p ∧ SendsNames (turns th p) q := by
  induction p generalizing th with
  | nil => simp [SendsNames,turns]
  | cons t p ih =>
    simp only [List.cons_append,SendsNames,ih,and_assoc]
    rfl

theorem not_sent_again (hd : Distinct th.lockedDevices) (hcase : OneCase th ts) (hs : SendsNames th ts) :
    NotSentAgain th ts := by
  rintro before now errors between now' errors' after rfl n hn hadd m hm hmn
  have hbefore := distinct_turns hd ((oneCase_append before _).mp hcase).1
  -- the last request of the run names the devices that are listed then
  rw [← List.cons_append,← List.append_assoc] at hs
  have hsent := ((sendsNames_append _ _).mp hs).2.1 now' errors' rfl
  rw [hsent,turns_append] at hm
  obtain ⟨d,hmem,rfl⟩ := List.mem_map.mp hm
  have hlisted : Listed n (turn (turns th before) (.oneMoreLock now errors)).lockedDevices :=
    @listed_turns _ between _ hadd ⟨d,hmem,hmn⟩
  rw [turn,computeSleepTime_devices,oneMoreLock_devices] at hlisted
  exact not_listed_erased hbefore hn hlisted

/-- The requests of a thread name its devices exactly when a command follows every refusal; then a device
that is refused is not sent again, if it is added under one letter case. -/
theorem requests_name_devices {now per : Int} {dev : String} (hr : Running (lockThread now dev per) ts) :
    (SendsNames (lockThread now dev per) ts ↔ CommandNext (lockThread now dev per) ts) ∧
      (CommandNext (lockThread now dev per) ts → OneCase (lockThread now dev per) ts →
        NotSentAgain (lockThread now dev per) ts) := by
  have hiff := sends_names_iff hr (Or.inl (Or.inl rfl))
  exact ⟨hiff,fun hc hcase => not_sent_again (by simp [Distinct,lockThread]) hcase (hiff.mpr hc)⟩

/-- The server has lost the lock of a device. -/
def lostLock : DevErrorList :=
  [⟨"API_DeviceNotLocked",.err,"b: Device b is not locked. Can't re-lock it","DeviceImpl::relock"⟩]

/-- A refusal, and a command before the next request. -/
def refusedOnce : List Turn :=
  [.addDev 1000000 "b" 4000000,.oneMoreLock 3500000 lostLock,.addDev 4000000 "c" 4000000,.oneMoreLock 7000000 []]

theorem requests_name_devices_after_command :
    SendsNames (lockThread 0 "a" 4000000) refusedOnce ∧ NotSentAgain (lockThread 0 "a" 4000000) refusedOnce := by
  have hr : Running (lockThread 0 "a" 4000000) refusedOnce :=
    ⟨by decide,by decide,by decide +kernel,by decide +kernel,trivial⟩
  have hcommand : CommandNext (lockThread 0 "a" 4000000) refusedOnce := by
    simp [CommandNext,refusedOnce,IsRequest]
  have hcase : OneCase (lockThread 0 "a" 4000000) refusedOnce := by
    simp only [OneCase,refusedOnce,reduceCtorEq,false_implies,implies_true,true_and,and_true,
      Turn.addDev.injEq,and_imp]
    refine ⟨?_,?_⟩
    all_goals
      rintro now name validity - rfl -
      decide +kernel
  obtain ⟨hiff,hagain⟩ := requests_name_devices hr
  exact ⟨hiff.mpr hcommand,hagain hcommand hcase⟩

/-- The request after a refusal names the refused device again. -/
theorem refused_device_sent :
    let ts : List Turn := [.addDev 1000000 "b" 4000000,.oneMoreLock 3500000 lostLock,.oneMoreLock 7000000 []]
    Running (lockThread 0 "a" 4000000) ts ∧ ¬SendsNames (lockThread 0 "a" 4000000) ts ∧
      sent (turns (lockThread 0 "a" 4000000) (ts.take 2)) = ["a","b"] ∧
      names (turns (lockThread 0 "a" 4000000) (ts.take 2)) = ["a"] := by
  have hsent : sent (turn (turn (lockThread 0 "a" 4000000) (.addDev 1000000 "b" 4000000))
      (.oneMoreLock 3500000 lostLock)) = ["a","b"] := by decide +kernel
  have hnames : names (turn (turn (lockThread 0 "a" 4000000) (.addDev 1000000 "b" 4000000))
      (.oneMoreLock 3500000 lostLock)) = ["a"] := by decide +kernel
  refine ⟨⟨by decide,by decide,by decide +kernel,trivial⟩,fun h => ?_,hsent,hnames⟩
  have heq := h.2.2.1 7000000 [] rfl
  rw [hsent,hnames] at heq
  exact absurd heq (by decide)

end Again

end CppTango.Client.Locking
