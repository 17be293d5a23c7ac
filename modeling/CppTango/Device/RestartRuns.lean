import CppTango.Device.RestartKept
import CppTango.Lib.Keyed

namespace CppTango.Device.Restart

open CppTango.Lib Polling Polling.PoolConf Polling.Properties

section Servers
variable {now : Int} {s : Server}

def devKey (d : DeviceImpl) : Text := lower d.name

structure Server.Named (s : Server) : Prop where
  names : (s.flatten.map devKey).Nodup
  devices : ∀ d ∈ s.flatten, d.Named

theorem eventsKept_refl {o : DeviceImpl} (ho : o.Named) : EventsKept now o o := by
  refine ⟨?_,?_,id⟩
  · intro a ha b hb hk
    rw [List.inj_on_of_nodup_map ho.attrs hb ha hk]
    exact ⟨fun _ _ => Iff.rfl,rfl,rfl,rfl⟩
  · intro p hp q hq hk hs
    rwa [List.inj_on_of_nodup_map ho.pipes hq hp hk]

theorem replaced_perm {name : Text} (d : DeviceImpl) (h : s.flatten.any (called name) = true) :
    (replaceDevice name d s).flatten.Perm (d :: s.flatten.eraseP (called name)) := by
  unfold replaceDevice
  induction s with
  | nil => cases h
  | cons devs s ih =>
    rw [updateFirst,List.flatten_cons]
    by_cases hd : devs.any (called name) = true
    · obtain ⟨x,hx,hc⟩ := List.any_eq_true.mp hd
      rw [if_pos hd,List.flatten_cons,List.eraseP_append_left hc _ hx,List.append_assoc]
      exact List.perm_middle
    · rw [List.flatten_cons,List.any_append,Bool.or_eq_true] at h
      have hnone : ∀ x ∈ devs, ¬ called name x = true := fun x hx hc => hd (List.any_eq_true.mpr ⟨x,hx,hc⟩)
      rw [if_neg hd,List.flatten_cons,List.eraseP_append_right _ hnone]
      exact ((ih (h.resolve_left hd)).append_left devs).trans List.perm_middle

/-- A device in the place of the one with its name. -/
theorem replaceDevice_spec (hs : s.Named) {o d : DeviceImpl} (ho : o ∈ s.flatten) (hkey : devKey d = devKey o)
    (hd : d.Named) :
    (replaceDevice (devKey o) d s).Named ∧
      ∀ x ∈ (replaceDevice (devKey o) d s).flatten, x = d ∨ x ∈ s.flatten ∧ devKey x ≠ devKey o := by
  have hany : s.flatten.any (called (devKey o)) = true := List.any_eq_true.mpr ⟨o,ho,decide_eq_true rfl⟩
  have he : s.flatten.eraseP (called (devKey o)) = without devKey (devKey o) s.flatten :=
    eraseP_eq_without hs.names (devKey o)
  have hperm := replaced_perm d hany
  rw [he] at hperm
  have hmem : ∀ x ∈ (replaceDevice (devKey o) d s).flatten, x = d ∨ x ∈ s.flatten ∧ devKey x ≠ devKey o :=
    fun x hx => (List.mem_cons.mp (hperm.subset hx)).imp_right mem_without.mp
  refine ⟨⟨?_,?_⟩,hmem⟩
  · rw [(hperm.map devKey).nodup_iff,List.map_cons,List.nodup_cons,hkey]
    exact ⟨not_mem_without _ _,nodup_without _ hs.names⟩
  · intro x hx
    rcases hmem x hx with rfl | ⟨hx,-⟩
    · exact hd
    · exact hs.devices x hx

theorem throughAll_map {α : Type} {f : α → α × Bool} {l : List α} (h : ∀ a ∈ l, (f a).2 = true) :
    throughAll f l = (l.map (fun a => (f a).1),true) := by
  induction l with
  | nil => rfl
  | cons a l ih =>
    rw [throughAll,if_pos (h a List.mem_cons_self),ih (fun b hb => h b (List.mem_cons_of_mem _ hb))]
    rfl

theorem throughAll_flatten {α : Type} {f : α → α × Bool} {l : List (List α)} (h : ∀ a ∈ l.flatten, (f a).2 = true) :
    (throughAll (throughAll f) l).1.flatten = l.flatten.map (fun a => (f a).1) := by
  have hone : ∀ m ∈ l, throughAll f m = (m.map (fun a => (f a).1),true) :=
    fun m hm => throughAll_map (fun a ha => h a (List.mem_flatten.mpr ⟨m,hm,ha⟩))
  rw [throughAll_map (fun m hm => by rw [hone m hm]),List.map_flatten]
  congr 1
  exact List.map_congr_left (fun m hm => by rw [hone m hm])

theorem start_flatten (back : NewServer) :
    back.start.flatten = back.classes.flatten.map (fun n => n.create n.name) := by
  unfold NewServer.start
  rw [List.map_flatten]

/-- Some client of the device is remembered. -/
def HasClients (now : Int) (o : DeviceImpl) : Prop :=
  anyDevIntrClient now o = true ∨ (∃ a ∈ o.attrList, getEventSubscriptionState now a ≠ none) ∨
    ∃ p ∈ o.pipes, p.isEventSubscribed now = true

/-- What decides whether `RestartServer` remembers a device. -/
def Remembered (now : Int) (o : DeviceImpl) : Prop :=
  anyDevIntrClient now o = true ∨ ∃ a ∈ o.attrList, getEventSubscriptionState now a ≠ none

instance (now : Int) (o : DeviceImpl) : Decidable (Remembered now o) := inferInstanceAs (Decidable (_ ∨ _))

instance (now : Int) (o : DeviceImpl) : Decidable (HasClients now o) := inferInstanceAs (Decidable (_ ∨ _ ∨ _))

theorem mem_serverEvents {e : Text × DeviceEventSubscriptionState} :
    e ∈ serverEvents now s ↔
      ∃ o ∈ s.flatten, Remembered now o ∧ e = (o.name,o.getEventSubscriptionState now) := by
  have hrem : ∀ o : DeviceImpl, Remembered now o ↔
      ((o.getEventSubscriptionState now).hasDevIntrChangeEventClients ||
        !(o.getEventSubscriptionState now).attributeEvents.isEmpty) = true := by
    intro o
    unfold Remembered
    rw [Bool.or_eq_true,Bool.not_eq_true',List.isEmpty_eq_false_iff]
    apply or_congr Iff.rfl
    change _ ↔ o.attrList.filterMap _ ≠ []
    rw [ne_eq,List.filterMap_eq_nil_iff]
    push Not
    rfl
  unfold serverEvents
  rw [List.mem_filterMap]
  apply exists_congr
  intro o
  apply and_congr_right
  intro _
  rw [hrem]
  simp only
  split
  · rename_i h
    simp [h,eq_comm]
  · rename_i h
    simp [h]

/-- A device without clients may be a new one. -/
theorem eventsKept_new {o : DeviceImpl} {n : NewDevice} (hb : Back now o n) (hno : ¬ HasClients now o) (name : Text) :
    EventsKept now o (n.create name) := by
  unfold HasClients at hno
  push Not at hno
  obtain ⟨hintr,hattrs,hpipes⟩ := hno
  refine ⟨?_,fun p hp _ _ _ hs => absurd hs (hpipes p hp),fun hi => absurd hi hintr⟩
  intro a ha b hbm hk
  obtain ⟨name,hname,rfl⟩ := List.mem_map.mp hbm
  have hmem : attrKey a ∈ n.attrs.map lower := by
    rw [← hk]
    exact List.mem_map_of_mem hname
  exact sameClients_new (hattrs a ha) (hb.even a ha hmem) name

theorem fresh_create (n : NewDevice) (name : Text) : Fresh n (n.create name) := ⟨rfl,rfl,rfl⟩

theorem named_create (n : NewDevice) (name : Text) : (n.create name).Named :=
  ⟨(fresh_create n name).attrKeys ▸ n.attrNames,(fresh_create n name).pipeKeys ▸ n.pipeNames,n.pollNames,
    fun h => absurd h Bool.false_ne_true⟩

/-- A device that comes back finds the clients it had, where they are under its name. -/
theorem setDevice_kept (hs : s.Named) {n : NewDevice}
    (hb : ∀ o ∈ s.flatten, lower n.name = devKey o →
      Back now o n ∧ (HasClients now o → n.name = o.name ∧ Remembered now o)) :
    let r := setDevice now (serverEvents now s) (n.create n.name)
    r.2 = true ∧ r.1.name = n.name ∧ r.1.Named ∧
      ∀ o ∈ s.flatten, lower n.name = devKey o → EventsKept now o r.1 := by
  unfold setDevice
  cases hfind : (serverEvents now s).find? (fun e => e.1 = (n.create n.name).name) with
  | none =>
    refine ⟨rfl,rfl,named_create n n.name,?_⟩
    intro o ho hk
    apply eventsKept_new (hb o ho hk).1
    intro hc
    obtain ⟨hname,hrem⟩ := (hb o ho hk).2 hc
    rw [List.find?_eq_none] at hfind
    exact hfind _ (mem_serverEvents.mpr ⟨o,ho,hrem,rfl⟩) (decide_eq_true hname.symm)
  | some e =>
    obtain ⟨o,ho,-,rfl⟩ := mem_serverEvents.mp (List.mem_of_find?_eq_some hfind)
    have hname : o.name = n.name := by
      have h := List.find?_some hfind
      exact of_decide_eq_true h
    have hk : lower n.name = devKey o := congrArg lower hname.symm
    obtain ⟨attrs,pipes,intr,hset,hattrs,hpipes,hkept⟩ :=
      setEventSubscriptionState_kept (fresh_create n n.name) (hs.devices o ho) (hb o ho hk).1
    simp only [hset]
    have hlocker : Lock.unlocked.deviceLocked = true → Lock.unlocked.lockerClient ≠ none :=
      fun h => absurd h Bool.false_ne_true
    refine ⟨trivial,rfl,⟨hattrs ▸ n.attrNames,hpipes ▸ n.pipeNames,n.pollNames,hlocker⟩,?_⟩
    intro o' ho' hk'
    rw [List.inj_on_of_nodup_map hs.names ho' ho (hk'.symm.trans hk)]
    exact hkept

end Servers

section Runs
variable {s : Server}

/-- What a call leaves of the clients, and what `DevRestart` leaves of lock and polling. -/
def Right (s : Server) : Op → Prop
  | .devRestart now dName cl n =>
    (∀ o ∈ s.flatten, ∀ d ∈ (restart now dName cl n s).flatten, devKey d = devKey o → EventsKept now o d) ∧
      ∀ o ∈ s.flatten, devKey o = restartName dName → lockRefused now cl o.locking = false →
        ∀ d ∈ (restart now dName cl n s).flatten, devKey d = devKey o → LockKept o d ∧ PollsKept n o d
  | .restartServer now back =>
    ∀ o ∈ s.flatten, ∀ d ∈ (restartServer now back s).flatten, devKey d = devKey o → EventsKept now o d
  | _ => True

/-- A restart after which nothing is lost: whatever has clients comes back, for `RestartServer` under the very name
it had and not with clients of pipes only. -/
def Meets (s : Server) : Op → Prop
  | .devRestart now dName cl n =>
    ∀ o ∈ s.flatten, devKey o = restartName dName → lockRefused now cl o.locking = false →
      Back now o n ∧ Repollable n o
  | .restartServer now back =>
    ∀ o ∈ s.flatten, ∀ n ∈ back.classes.flatten, lower n.name = devKey o →
      Back now o n ∧ (HasClients now o → n.name = o.name ∧ Remembered now o)
  | _ => True

instance (s : Server) : (op : Op) → Decidable (Meets s op)
  | .subscribe _ _ _ _ => .isTrue trivial
  | .lockRequest _ _ _ => .isTrue trivial
  | .devRestart _ _ _ _ => inferInstanceAs (Decidable (∀ o ∈ s.flatten, _))
  | .restartServer _ back => inferInstanceAs (Decidable (∀ o ∈ s.flatten, ∀ n ∈ back.classes.flatten, _))

theorem restart_right (hs : s.Named) {now : Int} {dName : Text} {cl : Lock.ClientAddr} {n : NewDevice}
    (hm : Meets s (.devRestart now dName cl n)) :
    (restart now dName cl n s).Named ∧ Right s (.devRestart now dName cl n) := by
  have hsame : s.Named ∧ ∀ o ∈ s.flatten, ∀ d ∈ s.flatten, devKey d = devKey o → EventsKept now o d := by
    refine ⟨hs,fun o ho d hd hk => ?_⟩
    rw [List.inj_on_of_nodup_map hs.names hd ho hk]
    exact eventsKept_refl (hs.devices o ho)
  unfold Right restart
  cases hfind : s.flatten.find? (called (restartName dName)) with
  | none =>
    simp only [hfind]
    refine ⟨hs,hsame.2,?_⟩
    intro o ho hk
    rw [List.find?_eq_none] at hfind
    exact absurd (decide_eq_true hk) (hfind o ho)
  | some o =>
    have ho := List.mem_of_find?_eq_some hfind
    have hk : devKey o = restartName dName := by
      have h := List.find?_some hfind
      exact of_decide_eq_true h
    have honly : ∀ o' ∈ s.flatten, devKey o' = restartName dName → o' = o :=
      fun o' ho' hk' => List.inj_on_of_nodup_map hs.names ho' ho (hk'.trans hk.symm)
    by_cases href : lockRefused now cl o.locking = true
    · simp only [hfind,if_pos href]
      refine ⟨hs,hsame.2,?_⟩
      intro o' ho' hk' hno
      rw [honly o' ho' hk',href] at hno
      cases hno
    · simp only [hfind,if_neg href]
      have hno : lockRefused now cl o.locking = false := Bool.not_eq_true _ ▸ href
      obtain ⟨hb,hp⟩ := hm o ho hk hno
      rw [← hk] at honly ⊢
      obtain ⟨hname,hnamed,hevents,hlock,hpolls⟩ := recreate_kept (hs.devices o ho) hb hp (devKey o)
      have hkey : devKey (recreate now o (devKey o) n).1 = devKey o := by
        rw [devKey,hname]
        exact lower_lower o.name
      obtain ⟨hreplaced,hmem⟩ := replaceDevice_spec hs ho hkey hnamed
      refine ⟨hreplaced,?_,?_⟩
      · intro o' ho' d hd hkd
        rcases hmem d hd with rfl | ⟨hd,-⟩
        · rw [honly o' ho' (hkd.symm.trans hkey)]
          exact hevents
        · exact hsame.2 o' ho' d hd hkd
      · intro o' ho' hk' _ d hd hkd
        rcases hmem d hd with rfl | ⟨-,hne⟩
        · rw [honly o' ho' hk']
          exact ⟨hlock,hpolls⟩
        · exact absurd (hkd.trans hk') hne

theorem restartServer_right (hs : s.Named) {now : Int} {back : NewServer} (hm : Meets s (.restartServer now back)) :
    (restartServer now back s).Named ∧ Right s (.restartServer now back) := by
  have hdev := fun n hn => setDevice_kept (n := n) hs (fun o ho hk => hm o ho n hn hk)
  have hflat : (restartServer now back s).flatten =
      back.classes.flatten.map (fun n => (setDevice now (serverEvents now s) (n.create n.name)).1) := by
    unfold restartServer
    rw [throughAll_flatten,start_flatten,List.map_map]
    · rfl
    · intro d hd
      obtain ⟨n,hn,rfl⟩ := List.mem_map.mp (start_flatten back ▸ hd)
      exact (hdev n hn).1
  have hkeys : (restartServer now back s).flatten.map devKey = back.classes.flatten.map (fun n => lower n.name) := by
    rw [hflat,List.map_map]
    apply List.map_congr_left
    intro n hn
    exact congrArg lower (hdev n hn).2.1
  refine ⟨⟨hkeys ▸ back.names,?_⟩,?_⟩
  · intro d hd
    obtain ⟨n,hn,rfl⟩ := List.mem_map.mp (hflat ▸ hd)
    exact (hdev n hn).2.2.1
  · intro o ho d hd hk
    obtain ⟨n,hn,rfl⟩ := List.mem_map.mp (hflat ▸ hd)
    refine (hdev n hn).2.2.2 o ho ?_
    rw [← hk]
    exact congrArg lower (hdev n hn).2.1.symm

theorem onDevice_named (hs : s.Named) {name : Text} {f : DeviceImpl → DeviceImpl}
    (hname : ∀ d, devKey (f d) = devKey d)
    (hf : ∀ d, d.Named → (f d).Named) : (onDevice name f s).Named := by
  have hkeys : (onDevice name f s).flatten.map devKey = s.flatten.map devKey := by
    unfold onDevice
    rw [List.map_flatten,List.map_flatten,List.map_map]
    congr 1
    exact List.map_congr_left (fun devs _ => keys_updateFirst hname)
  refine ⟨hkeys ▸ hs.names,?_⟩
  intro d hd
  obtain ⟨devs',hdevs',hd⟩ := List.mem_flatten.mp hd
  obtain ⟨devs,hdevs,rfl⟩ := List.mem_map.mp hdevs'
  have hold : ∀ d ∈ devs, d.Named := fun d hd => hs.devices d (List.mem_flatten.mpr ⟨devs,hdevs,hd⟩)
  rcases mem_updateFirst hd with hd | ⟨a,ha,-,rfl⟩
  · exact hold d hd
  · exact hf a (hold a ha)

theorem attrKey_subscribe (now : Int) (t : ClientEvent) (release : Nat) (zmq : Bool) (a : Attribute) :
    attrKey (subscribeAttr now t release (setChannel zmq a)) = attrKey a := by
  have hchannel : attrKey (setChannel zmq a) = attrKey a := by
    unfold setChannel
    split
    · rfl
    · rfl
  have hlib : ∀ (r : Release t) (a : Attribute), attrKey (setClientLib r a) = attrKey a := by
    intro r a
    unfold setClientLib
    split
    · rfl
    · rfl
  rw [← hchannel]
  unfold subscribeAttr
  split
  · split
    · exact hlib _ _
    · rfl
  · rfl

theorem subscribe_named (now : Int) (what : Subscription) (zmq : Bool) {d : DeviceImpl} (h : d.Named) :
    (subscribeDevice now what zmq d).Named := by
  cases what with
  | clientEvent name t release =>
    refine ⟨?_,h.pipes,h.polls,h.locker⟩
    rw [subscribeDevice,keys_updateFirst (attrKey_subscribe now t release zmq)]
    exact h.attrs
  | dataReady name =>
    refine ⟨?_,h.pipes,h.polls,h.locker⟩
    rw [subscribeDevice,keys_updateFirst]
    · exact h.attrs
    · intro a
      cases zmq <;> rfl
  | pipe name =>
    refine ⟨h.attrs,?_,h.polls,h.locker⟩
    rw [subscribeDevice,keys_updateFirst]
    · exact h.pipes
    · intro p
      rfl
  | interfaceChange => exact ⟨h.attrs,h.pipes,h.polls,h.locker⟩

/-- A locked device has a locker, after any request. -/
theorem lockDevice_rest (now : Int) (r : LockRequest) {d : DeviceImpl}
    (h : d.locking.deviceLocked = true → d.locking.lockerClient ≠ none) :
    ∃ locking : Lock.Locking, lockDevice now r d = {d with locking := locking} ∧
      (locking.deviceLocked = true → locking.lockerClient ≠ none) := by
  cases r with
  | lock cl validity =>
    refine ⟨_,rfl,?_⟩
    unfold Lock.lock
    split
    · split
      · split
        · exact h
        · exact fun _ => Option.some_ne_none _
      · exact fun _ => Option.some_ne_none _
    · exact fun _ => Option.some_ne_none _
  | relock cl =>
    refine ⟨_,rfl,?_⟩
    unfold Lock.relock
    split
    · rename_i hl
      split
      · split
        · exact h
        · exact fun _ => h hl
      · exact h
    · exact h
  | unlock cl forced =>
    refine ⟨_,rfl,?_⟩
    unfold Lock.unlock
    split
    · exact h
    · unfold Lock.countDown
      split
      · exact fun hl => absurd hl Bool.false_ne_true
      · exact h

theorem step_right (hs : s.Named) (op : Op) (hm : Meets s op) : (after s op).Named ∧ Right s op := by
  cases op with
  | subscribe now name what zmq =>
    refine ⟨onDevice_named hs (fun d => ?_) (fun d hd => subscribe_named now what zmq hd),trivial⟩
    cases what <;> rfl
  | lockRequest now name r =>
    refine ⟨onDevice_named hs (fun d => ?_) (fun d hd => ?_),trivial⟩
    · cases r <;> rfl
    · obtain ⟨locking,he,hlocker⟩ := lockDevice_rest now r hd.locker
      rw [he]
      exact ⟨hd.attrs,hd.pipes,hd.polls,hlocker⟩
  | devRestart now dName cl n => exact restart_right hs hm
  | restartServer now back => exact restartServer_right hs hm

theorem along_right (hs : s.Named) {ops : List Op} (h : Along after Meets s ops) : Along after Right s ops := by
  induction ops generalizing s with
  | nil => trivial
  | cons op ops ih =>
    obtain ⟨hnamed,hright⟩ := step_right hs op h.1
    exact ⟨hright,ih hnamed h.2⟩

theorem named_start (back : NewServer) : back.start.Named := by
  constructor
  · rw [start_flatten,List.map_map]
    exact back.names
  · intro d hd
    obtain ⟨n,-,rfl⟩ := List.mem_map.mp (start_flatten back ▸ hd)
    exact named_create n n.name

/-- A motor with two attributes and a pipe. -/
def motor (name : String) (attrs : List Text) (hattrs : (attrs.map lower).Nodup) : NewDevice where
  name := name.toList
  attrs := attrs
  pipes := ["scan".toList]
  cmds := []
  polls := [⟨.pollAttr,"position".toList,1000⟩]
  idl3 := true
  isFwdAtt _ := false
  authorized _ := true
  served _ := true
  attrNames := hattrs
  pipeNames := by decide
  pollNames := by decide

/-- A server with one motor, which has the name in the database. -/
def motors (name : String) : NewServer where
  classes := [[motor name ["position".toList,"speed".toList] (by decide)]]
  names := by simp

def client : Lock.ClientAddr := ⟨true,"giop:tcp:10.0.0.1:4000",.cpp,1,"",(0,0)⟩

/-- A client of the change event, and a restart of the motor that leaves it its attributes. -/
def restarted (name : String) : List Op :=
  [.subscribe 100 "sys/motor/1".toList (.clientEvent "position".toList .change 5) true,
    .devRestart 200 "sys/motor/1".toList client
      {motor name ["position".toList] (by decide) with polls := [],pollNames := by decide}]

def changeClients (s : Server) : List (List (List Nat)) :=
  s.flatten.map (fun d => d.attrList.map (fun a => (a.clientLib .change).map Subtype.val))

end Runs

end CppTango.Device.Restart
