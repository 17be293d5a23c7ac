import CppTango.Device.StateComputed

namespace CppTango.Device.Alarm

open CppTango.Lib

section Outcomes
variable {a : Attribute} {m : Method} {r r' x : Reading} {now : Int} {failed : Bool}

/-- A method that is called, and delivers a value or sets none. -/
structure Plain (a : Attribute) (m : Method) : Prop where
  isAllowed : m.isAllowed = true
  ends : m.ends ≠ .other
  value : m.delivers a ∨ (m.after a .initial).value = none

/-- A failed reading leaves no ALARM or WARNING. -/
def LeavesNone (a : Attribute) (m : Method) (r : Reading) : Prop :=
  ¬m.delivers a → isAlarmedQuality (m.after a r).quality = false

/-- What a reading of an attribute with alarms leaves: the quality of the value it delivers, checked. -/
def Leaves (a : Attribute) (now : Int) (m : Method) (b : Bool) : Prop :=
  if m.delivers a then ∃ x, Rechecked a now (m.after a .initial) x ∧ b = isAlarmedQuality x.quality
  else b = false

theorem Leaves.det {b c : Bool} (hb : Leaves a now m b) (hc : Leaves a now m c) : b = c := by
  unfold Leaves at hb hc
  split at hb
  · rename_i hd
    rw [if_pos hd] at hc
    obtain ⟨x,hx,rfl⟩ := hb
    obtain ⟨y,hy,rfl⟩ := hc
    rw [hx.det hy]
  · rename_i hd
    rw [if_neg hd] at hc
    exact hb.trans hc.symm

theorem own_delivers (h : Plain a m) (hd : m.delivers a) :
    (readForState a m r).2.2 = m.after a .initial := by
  have hv : (m.after a r).value ≠ none := fun hv => hd.2 (after_none_iff.mp hv)
  rw [own_returned h.isAllowed hd.1 hv,delivers_after hd]

theorem own_fails (h : Plain a m) (hd : ¬m.delivers a) : (readForState a m r).2.2.quality = .invalid := by
  have hv : (m.after a r).value = none := after_none_iff.mp (h.value.resolve_left hd)
  rw [own_quality h.isAllowed h.ends,if_pos hv]

theorem own_leaves (h : Plain a m) (hx : Rechecked a now (readForState a m r).2.2 x) :
    Leaves a now m (isAlarmedQuality x.quality) := by
  unfold Leaves
  split
  · rename_i hd
    rw [own_delivers h hd] at hx
    exact ⟨x,hx,rfl⟩
  · rename_i hd
    have hq := @own_fails a m r h hd
    rcases hx with ⟨-,rfl⟩ | ⟨hn,-⟩
    · rw [hq]
      rfl
    · exact absurd hq hn

/-- A failed reading of the list leaves neither a value nor ALARM or WARNING. -/
theorem wanted_fails (h : Plain a m) (hn : LeavesNone a m r) (hd : ¬m.delivers a)
    (hw : readWanted a now m r = .ok (failed,r')) :
    r'.value = none ∧ isAlarmedQuality r'.quality = false := by
  have hv : (m.after a r).value = none := after_none_iff.mp (h.value.resolve_left hd)
  unfold readWanted at hw
  rw [h.isAllowed,if_neg Bool.noConfusion] at hw
  split at hw
  · cases hw
    exact ⟨hv,hn hd⟩
  · split at hw
    · obtain ⟨⟨hit,x⟩,he,hw⟩ := except_bind_ok.mp hw
      cases hw
      rw [evaluate_none hv he]
      exact ⟨hv,hn hd⟩
    · cases hw
      exact ⟨hv,hn hd⟩

theorem wanted_delivers (h : m.isAllowed = true) (hd : m.delivers a) (hal : a.isAlarmed = true)
    (hw : readWanted a now m r = .ok (failed,r')) : Rechecked a now (m.after a .initial) r' := by
  unfold readWanted at hw
  rw [h,if_neg Bool.noConfusion,if_neg (not_not.mpr hd.1),@delivers_after a m r .initial hd] at hw
  split at hw
  · rename_i hq
    obtain ⟨⟨hit,x⟩,he,hw⟩ := except_bind_ok.mp hw
    cases hw
    exact Or.inr ⟨hq.2,hit,he⟩
  · rename_i hq
    cases hw
    exact Or.inl ⟨by_contra (fun hn => hq ⟨hal,hn⟩),rfl⟩

theorem wanted_leaves (h : Plain a m) (hn : LeavesNone a m r) (hal : a.isAlarmed = true)
    (hw : readWanted a now m r = .ok (failed,r')) (hx : x = r' ∨ Rechecked a now r' x) :
    Leaves a now m (isAlarmedQuality x.quality) := by
  unfold Leaves
  split
  · rename_i hd
    have hr := wanted_delivers h.isAllowed hd hal hw
    refine ⟨r',hr,?_⟩
    rcases hx with rfl | hx
    · rfl
    · exact hr.again hx
  · rename_i hd
    obtain ⟨hv,hq⟩ := wanted_fails h hn hd hw
    rcases hx with rfl | hx
    · exact hq
    · rw [hx.none hv]
      exact hq

end Outcomes

variable {D : DeviceImpl} {now : Int} {d d' : Data} {i : Nat} {methods : Nat → Method}
  {list : List (Nat × Method)} {readings : Nat → Reading}

section Lists

/-- The set value is all that is read of a write attribute. -/
def Sets (D : DeviceImpl) (list : List (Nat × Method)) : Prop :=
  ∀ p ∈ list, ∀ a, D.attrs[p.1]? = some a → isReadable a = false → ∀ act ∈ p.2.acts, ∃ v, act = .setValue v

/-- The readings of a list. -/
def ListPlain (D : DeviceImpl) (now : Int) (list : List (Nat × Method)) (readings : Nat → Reading) : Prop :=
  PassAll D now (fun _ a m r _ => Plain a m ∧ LeavesNone a m r) list readings ∧ Sets D list

theorem set_value_quality {a : Attribute} {acts : List Act} (h : ∀ act ∈ acts, ∃ v, act = .setValue v)
    {r : Reading} (hr : isAlarmedQuality r.quality = false) :
    isAlarmedQuality (acts.foldl (Act.apply a) r).quality = false := by
  induction acts generalizing r with
  | nil => exact hr
  | cons act acts ih =>
    refine ih (fun act' h' => h act' (List.mem_cons_of_mem _ h')) ?_
    obtain ⟨v,rfl⟩ := h act List.mem_cons_self
    change isAlarmedQuality (if v.fits a then setValue v else r).quality = false
    split
    · rfl
    · exact hr

theorem write_pass_quality (hs : Sets D list) (h : isAlarmedQuality (readings i).quality = false) :
    isAlarmedQuality ((writePass D list readings).2 i).quality = false := by
  induction list generalizing readings with
  | nil => exact h
  | cons p list ih =>
    obtain ⟨j,m⟩ := p
    have hrest : Sets D list := fun p hp => hs p (List.mem_cons_of_mem _ hp)
    unfold writePass
    cases ha : D.attrs[j]?.filter (fun a => !isReadable a) with
    | none => exact ih hrest h
    | some a =>
      refine ih hrest ?_
      by_cases hij : i = j
      · obtain ⟨hattr,hw⟩ := Option.filter_eq_some_iff.mp ha
        subst hij
        rw [Function.update_self]
        exact set_value_quality (hs (i,m) List.mem_cons_self a hattr (by simpa using hw)) h
      · rwa [Function.update_of_ne hij]

theorem write_pass_unread (h : i ∉ list.map Prod.fst) : (writePass D list readings).2 i = readings i := by
  induction list generalizing readings with
  | nil => rfl
  | cons p list ih =>
    obtain ⟨j,m⟩ := p
    obtain ⟨hij,hi⟩ := not_or.mp (fun hi => h (List.mem_cons.mpr hi))
    unfold writePass
    cases D.attrs[j]?.filter (fun a => !isReadable a) with
    | none => exact ih hi
    | some a => exact (ih hi).trans (Function.update_of_ne hij _ _)

/-- What both passes over a list leave. -/
structure ListLeft (D : DeviceImpl) (now : Int) (list : List (Nat × Method))
    (readings readings' : Nat → Reading) : Prop where
  unread : ∀ i, i ∉ list.map Prod.fst → readings' i = readings i
  read : ∀ i ∈ readList D list, ∀ a, D.attrs[i]? = some a → ∃ m r failed, lastOf i list = some m ∧
    Plain a m ∧ LeavesNone a m r ∧ readWanted a now m r = .ok (failed,readings' i)
  write : ∀ i a, D.attrs[i]? = some a → isReadable a = false →
    isAlarmedQuality (readings i).quality = false → isAlarmedQuality (readings' i).quality = false

theorem list_left {p : List Bool × (Nat → Reading)} (h : ListPlain D now list readings)
    (hp : readPass D now list readings = .ok p) :
    ListLeft D now list readings (writePass D list p.2).2 := by
  obtain ⟨hpass,hsets⟩ := h
  obtain ⟨hothers,hread⟩ := (pass_yields hpass).of_ok hp
  refine ⟨fun i hi => ?_,fun i hi a ha => ?_,fun i a ha hw hq => ?_⟩
  · rw [write_pass_unread hi]
    exact hothers i (fun hr => hi (List.mem_of_mem_filter hr))
  · obtain ⟨m,r,failed,later,hlast,⟨hplain,hnone⟩,-,hok⟩ := hread i hi a ha
    have hr : isReadable a = true := by
      have hfilter := (List.mem_filter.mp hi).2
      rwa [ha] at hfilter
    refine ⟨m,r,failed,hlast,hplain,hnone,?_⟩
    rwa [write_pass_others (fun b hb => Option.some.inj (ha.symm.trans hb) ▸ hr)]
  · refine write_pass_quality hsets ?_
    have hn : i ∉ readList D list := fun hi => by
      have hfilter := (List.mem_filter.mp hi).2
      rw [ha] at hfilter
      exact Bool.noConfusion (hfilter.symm.trans hw)
    rwa [hothers i hn]

end Lists

section Calls
variable {reads : List (Nat × Method)} {readings' : Nat → Reading}

theorem lastOf_append {reads' : List (Nat × Method)} :
    lastOf i (reads ++ reads') = (lastOf i reads').or (lastOf i reads) := by
  induction reads with
  | nil => simp [lastOf]
  | cons p reads ih =>
    rw [List.cons_append,lastOf,ih,lastOf,Option.or_assoc]

theorem lastOf_map {is : List Nat} :
    lastOf i (is.map (fun i => (i,methods i))) = if i ∈ is then some (methods i) else none := by
  induction is with
  | nil => rfl
  | cons j is ih =>
    rw [List.map_cons,lastOf,ih]
    by_cases hi : i ∈ is
    · simp [hi]
    · by_cases hj : j = i
      · subst hj
        simp [hi]
      · simp [hi,hj,Ne.symm hj]

/-- What the readings of a call, the list's and those of `dev_state`, leave of the qualities. -/
structure CallLeft (D : DeviceImpl) (reads : List (Nat × Method)) (readings readings' : Nat → Reading) :
    Prop where
  unread : ∀ i, lastOf i reads = none →
    isAlarmedQuality (readings' i).quality = isAlarmedQuality (readings i).quality
  failed : ∀ i a m, D.attrs[i]? = some a → isReadable a = true → lastOf i reads = some m → ¬m.delivers a →
    isAlarmedQuality (readings' i).quality = false
  write : ∀ i a, D.attrs[i]? = some a → isReadable a = false →
    isAlarmedQuality (readings i).quality = false → isAlarmedQuality (readings' i).quality = false

theorem CallLeft.congr {readings'' : Nat → Reading} (h : CallLeft D reads readings readings')
    (hq : ∀ i, (readings'' i).quality = (readings' i).quality) : CallLeft D reads readings readings'' := by
  constructor <;> simp only [hq]
  · exact h.unread
  · exact h.failed
  · exact h.write

theorem list_call (h : ListLeft D now list readings readings') : CallLeft D list readings readings' := by
  refine ⟨fun i hi => ?_,fun i a m ha hr hm hd => ?_,h.write⟩
  · rw [h.unread i (lastOf_none.mp hi)]
  · have hmem : i ∈ list.map Prod.fst := by
      by_contra hn
      cases (lastOf_none.mpr hn).symm.trans hm
    have hread : i ∈ readList D list := List.mem_filter.mpr ⟨hmem,by simpa [ha] using hr⟩
    obtain ⟨m',r,failed,hlast,hplain,hnone,hok⟩ := h.read i hread a ha
    cases hm.symm.trans hlast
    exact (wanted_fails hplain hnone hd hok).2

instance : Decidable (Computes D d) := inferInstanceAs (Decidable (_ ∧ _))

/-- The readings of `dev_state`. -/
def ownReads (D : DeviceImpl) (wanted : List Nat) (methods : Nat → Method) (d : Data) :
    List (Nat × Method) :=
  if Computes D d then (ownList D wanted).map (fun i => (i,methods i)) else []

/-- An attribute of the list with alarms, after the check with the state. -/
theorem asked_leaves (h : ListLeft D now list readings d.readings)
    (hc : Computed D now (readList D list) methods d d') :
    ∀ i ∈ alarmList D, i ∈ readList D list → ∀ a, D.attrs[i]? = some a →
      ∃ m, lastOf i list = some m ∧ Leaves a now m (isAlarmedQuality (d'.readings i).quality) := by
  intro i hi hr a ha
  obtain ⟨m,r,failed,hm,hplain,hnone,hok⟩ := h.read i hr a ha
  obtain ⟨b,hb,hal,-⟩ := mem_alarmList.mp hi
  cases ha.symm.trans hb
  obtain ⟨x,hx,hq⟩ := hc.asked i hi hr a ha
  exact ⟨m,hm,hq ▸ wanted_leaves hplain hnone hal hok hx⟩

theorem state_call (h : ListLeft D now list readings d.readings)
    (hp : ∀ i ∈ alarmList D, ∀ a, D.attrs[i]? = some a → Plain a (methods i))
    (hc : Computed D now (readList D list) methods d d') :
    CallLeft D (list ++ (ownList D (readList D list)).map (fun i => (i,methods i))) readings d'.readings := by
  have hlist := list_call h
  have hlast (i : Nat) : lastOf i (list ++ (ownList D (readList D list)).map (fun i => (i,methods i))) =
      if i ∈ ownList D (readList D list) then some (methods i) else lastOf i list := by
    rw [lastOf_append,lastOf_map]
    split <;> rfl
  have hasked := asked_leaves h hc
  refine ⟨fun i hi => ?_,fun i a m ha hr hm hd => ?_,fun i a ha hw hq => ?_⟩
  · rw [hlast] at hi
    split at hi
    · cases hi
    · rename_i hown
      by_cases hal : i ∈ alarmList D
      · have hr : i ∈ readList D list := by_contra (fun hn => hown (mem_ownList.mpr ⟨hal,hn⟩))
        obtain ⟨a,ha,-⟩ := mem_alarmList.mp hal
        obtain ⟨m,hm,-⟩ := hasked i hal hr a ha
        cases hi.symm.trans hm
      · rw [hc.others i hal]
        exact hlist.unread i hi
  · rw [hlast] at hm
    split at hm
    · rename_i hown
      cases hm
      obtain ⟨x,hx,hq⟩ := hc.own i hown a ha
      have hleaves := own_leaves (hp i (mem_ownList.mp hown).1 a ha) hx
      rw [Leaves,if_neg hd] at hleaves
      rwa [hq]
    · rename_i hown
      by_cases hal : i ∈ alarmList D
      · have hread : i ∈ readList D list := by_contra (fun hn => hown (mem_ownList.mpr ⟨hal,hn⟩))
        obtain ⟨m',hm',hleaves⟩ := hasked i hal hread a ha
        cases hm.symm.trans hm'
        rwa [Leaves,if_neg hd] at hleaves
      · rw [hc.others i hal]
        exact hlist.failed i a m ha hr hm hd
  · have hal : i ∉ alarmList D := fun hal =>
      Bool.noConfusion ((readable_of_alarmed hal a ha).symm.trans hw)
    rw [hc.others i hal]
    exact hlist.write i a ha hw hq

end Calls

section Histories

/-- A device, with what a client knows of its past: where the last reading of an attribute delivered
a value and left ALARM or WARNING, and the last `set_state`. -/
structure History where
  data : Data
  good : Nat → Bool
  lastSet : Option DevState
  time : Int

def Call.time : Call → Int
  | .readAttributes _ now _ _ => now
  | .devState now _ => now
  | .setState now _ => now

/-- The readings a call makes. -/
def callReads (D : DeviceImpl) (d : Data) : Call → List (Nat × Method)
  | .readAttributes _ _ list none => list
  | .readAttributes _ _ list (some methods) => list ++ ownReads D (readList D list) methods d
  | .devState _ methods => ownReads D [] methods d
  | .setState _ _ => []

def remember (D : DeviceImpl) (reads : List (Nat × Method)) (readings : Nat → Reading) (good : Nat → Bool)
    (i : Nat) : Bool :=
  match D.attrs[i]?,lastOf i reads with
  | some a,some m => decide (m.delivers a) && isAlarmedQuality (readings i).quality
  | _,_ => good i

def Call.lastSet (last : Option DevState) : Call → Option DevState
  | .setState _ newState => some newState
  | _ => last

def CallPlain (D : DeviceImpl) (d : Data) : Call → Prop
  | .readAttributes _ now list state => ListPlain D now list d.readings ∧
      ∀ methods, state = some methods → ∀ i ∈ alarmList D, ∀ a, D.attrs[i]? = some a → Plain a (methods i)
  | .devState _ methods => ∀ i ∈ alarmList D, ∀ a, D.attrs[i]? = some a → Plain a (methods i)
  | .setState _ _ => True

/-- Calls at times that do not go back, from a device that was started and not read. -/
inductive Reached (D : DeviceImpl) : History → Prop
  | start (state : DevState) (now : Int) (h : 0 < timeT now) :
    Reached D ⟨⟨fun _ => .initial,state,0,0⟩,fun _ => false,none,now⟩
  | call {h : History} (c : Call) (d : Data) (hr : Reached D h) (ht : h.time ≤ c.time)
    (hp : CallPlain D h.data c) (hs : step D h.data c = .ok d) :
    Reached D ⟨d,remember D (callReads D h.data c) d.readings h.good,c.lastSet h.lastSet,c.time⟩

/-- The qualities of the attributes are what the client knows of them. -/
structure GoodReadings (D : DeviceImpl) (readings : Nat → Reading) (good : Nat → Bool) : Prop where
  known : ∀ i a, D.attrs[i]? = some a → isAlarmedQuality (readings i).quality = good i
  write : ∀ i a, D.attrs[i]? = some a → isReadable a = false → isAlarmedQuality (readings i).quality = false

theorem CallLeft.good {reads : List (Nat × Method)} {readings' : Nat → Reading} {good : Nat → Bool}
    (h : CallLeft D reads readings readings') (hg : GoodReadings D readings good) :
    GoodReadings D readings' (remember D reads readings' good) := by
  refine ⟨fun i a ha => ?_,fun i a ha hw => h.write i a ha hw (hg.write i a ha hw)⟩
  unfold remember
  rw [ha]
  cases hm : lastOf i reads with
  | none => exact (h.unread i hm).trans (hg.known i a ha)
  | some m =>
    by_cases hd : m.delivers a
    · simp [hd]
    · simp only [decide_eq_false hd,Bool.false_and]
      cases hr : isReadable a with
      | true => exact h.failed i a m ha hr hm hd
      | false => exact h.write i a ha hr (hg.write i a ha hr)

/-- What the last `set_state` and the time stamps say. -/
structure Stamped (d : Data) (lastSet : Option DevState) (now : Int) : Prop where
  time : 0 < timeT now
  kernel : d.alarmStateKernel ≤ timeT now
  on : lastSet = some .on → d.alarmStateUser = 0 ∧
    (d.deviceState = .on ∨ d.deviceState = .alarm ∧ 0 < d.alarmStateKernel)
  alarm : lastSet = some .alarm → d.deviceState = .alarm ∧ d.alarmStateKernel ≤ d.alarmStateUser

theorem timeT_le {now now' : Int} (h : now ≤ now') : timeT now ≤ timeT now' :=
  Int.ediv_le_ediv (by decide) h

theorem Stamped.on_free {lastSet : Option DevState} {now : Int} (h : Stamped d lastSet now)
    (hl : lastSet = some .on) : ¬UserAlarm d := by
  rintro ⟨hstate,hk⟩
  obtain ⟨hu,h⟩ := h.on hl
  rcases h with h | ⟨-,h⟩
  · cases hstate.symm.trans h
  · omega

theorem Stamped.on_computes {lastSet : Option DevState} {now : Int} (h : Stamped d lastSet now)
    (hl : lastSet = some .on) : d.deviceState = .on ∨ d.deviceState = .alarm :=
  (h.on hl).2.imp id And.left

theorem Stamped.later {lastSet : Option DevState} {now now' : Int} (h : Stamped d lastSet now)
    (ht : now ≤ now') : Stamped d lastSet now' :=
  ⟨lt_of_lt_of_le h.time (timeT_le ht),h.kernel.trans (timeT_le ht),h.on,h.alarm⟩

theorem Stamped.set {lastSet : Option DevState} {now : Int} (h : Stamped d lastSet now)
    (newState : DevState) : Stamped (d.setState now newState) (some newState) now := by
  refine ⟨h.time,h.kernel,fun hl => ?_,fun hl => ?_⟩
  · cases hl
    exact ⟨rfl,Or.inl rfl⟩
  · cases hl
    exact ⟨rfl,h.kernel⟩

theorem Stamped.settled {lastSet : Option DevState} (h : Stamped d lastSet now)
    (hs : SettledData D now d d') : Stamped d' lastSet now := by
  refine ⟨h.time,?_,fun hl => ⟨hs.user.trans (h.on hl).1,?_⟩,fun hl => ?_⟩
  · rcases hs.kernel with ⟨hk,-⟩ | ⟨hk,-⟩
    · exact hk ▸ h.kernel
    · exact hk.le
  · by_cases hstate : d'.deviceState = .alarm
    · refine Or.inr ⟨hstate,?_⟩
      rcases hs.kernel with ⟨hk,hkept⟩ | ⟨hk,-⟩
      · obtain ⟨-,hon | ⟨-,hpos⟩⟩ := h.on hl
        · cases hon.symm.trans (hkept hstate)
        · rwa [hk]
      · rw [hk]
        exact h.time
    · have hcomputed := hs.state
      unfold computedState at hcomputed
      split at hcomputed
      · exact absurd hcomputed hstate
      · exact Or.inl hcomputed
  · obtain ⟨hstate,hk⟩ := h.alarm hl
    have hu : UserAlarm d := ⟨hstate,not_lt.mpr hk⟩
    have hcomputed : d'.deviceState = .alarm := by rw [hs.state,computedState,if_pos (Or.inl hu)]
    rcases hs.kernel with ⟨hk',-⟩ | ⟨-,hn⟩
    · exact ⟨hcomputed,by rw [hk',hs.user]; exact hk⟩
    · exact absurd hu hn

end Histories

section Runs
variable {idl : Nat} {state : Option DevState} {lastSet : Option DevState}

theorem reply_pass_quality (readings : Nat → Reading) (n : Nat × Bool) (j : Nat) :
    (replyPass D idl readings n j).quality = (readings j).quality := by
  unfold replyPass
  cases D.attrs[n.1]? with
  | none => rfl
  | some a =>
    simp only []
    split
    · exact update_quality (r := (readings n.1).deleteSeq) rfl j
    · rfl

/-- What is left of the state and the qualities when the reply has been built. -/
structure Replied (d d' : Data) : Prop where
  quality : ∀ i, (d'.readings i).quality = (d.readings i).quality
  state : d'.deviceState = d.deviceState
  user : d'.alarmStateUser = d.alarmStateUser
  kernel : d'.alarmStateKernel = d.alarmStateKernel

theorem Replied.stamped (h : Replied d d') (hs : Stamped d lastSet now) : Stamped d' lastSet now := by
  constructor
  · exact hs.time
  · rw [h.kernel]
    exact hs.kernel
  · rw [h.user,h.state,h.kernel]
    exact hs.on
  · rw [h.user,h.state,h.kernel]
    exact hs.alarm

theorem list_read_ok (h : readAttributes D idl now list none d = .ok (state,d')) :
    ∃ p, readPass D now list d.readings = .ok p ∧
      Replied {d with readings := (writePass D list p.2).2} d' := by
  obtain ⟨p,hp,h⟩ := except_bind_ok.mp h
  cases h
  exact ⟨p,hp,fun i => foldl_quality reply_pass_quality _ i,rfl,rfl,rfl⟩

theorem state_read_ok (h : readAttributes D idl now list (some methods) d = .ok (state,d')) :
    ∃ p d₁, readPass D now list d.readings = .ok p ∧
      devState D now (readList D list) methods {d with readings := (writePass D list p.2).2} =
        .ok (state,d₁) ∧ Replied d₁ d' := by
  obtain ⟨p,hp,h⟩ := except_bind_ok.mp h
  change (devState D now (readList D list) methods
    {d with readings := (writePass D list p.2).2} >>= _) = _ at h
  obtain ⟨⟨s,d₁⟩,hs,h⟩ := except_bind_ok.mp h
  cases h
  refine ⟨p,d₁,hp,hs,?_⟩
  split
  · exact ⟨fun _ => rfl,rfl,rfl,rfl⟩
  · exact ⟨fun i => foldl_quality reply_pass_quality _ i,rfl,rfl,rfl⟩

/-- The state that `dev_state` gives, and what it leaves. -/
theorem state_given (h : ListLeft D now list readings d.readings)
    (hp : ∀ i ∈ alarmList D, ∀ a, D.attrs[i]? = some a → Plain a (methods i))
    (hs : devState D now (readList D list) methods d = .ok (state,d')) :
    CallLeft D (list ++ ownReads D (readList D list) methods d) readings d'.readings ∧
      (Computes D d → state = some d'.deviceState ∧ SettledData D now d d') ∧
      (¬Computes D d → d' = d ∧
        state = some (if d.deviceState ≠ .fault ∧ D.forceAlarmState = true then .alarm else d.deviceState)) := by
  by_cases hc : Computes D d
  · have hgo : ∀ i ∈ ownList D (readList D list), ∀ a, D.attrs[i]? = some a →
        (readForState a (methods i) (d.readings i)).1 = true :=
      fun i hi a ha => own_goes_on.mpr (fun _ => (hp i (mem_ownList.mp hi).1 a ha).ends)
    obtain ⟨hstate,hcomputed⟩ := (dev_state_computes hc hgo).of_ok hs
    rw [ownReads,if_pos hc]
    exact ⟨state_call h hp hcomputed,fun _ => ⟨hstate,hcomputed.settled⟩,fun hn => absurd hc hn⟩
  · rw [dev_state_kept hc] at hs
    cases hs
    rw [ownReads,if_neg hc,List.append_nil]
    exact ⟨list_call h,fun h => absurd h hc,fun _ => ⟨rfl,rfl⟩⟩

/-- What holds of a device and its past. -/
structure Inv (D : DeviceImpl) (h : History) : Prop where
  good : GoodReadings D h.data.readings h.good
  stamped : Stamped h.data h.lastSet h.time

theorem state_stamped {state : Option DevState} (hs : Stamped d lastSet now)
    (hc : Computes D d → state = some d'.deviceState ∧ SettledData D now d d')
    (hn : ¬Computes D d → d' = d ∧
      state = some (if d.deviceState ≠ .fault ∧ D.forceAlarmState = true then .alarm else d.deviceState)) :
    Stamped d' lastSet now := by
  by_cases h : Computes D d
  · exact hs.settled (hc h).2
  · rw [(hn h).1]
    exact hs

theorem nothing_left : ListLeft D now [] readings readings :=
  ⟨fun _ _ => rfl,fun _ h => absurd h List.not_mem_nil,fun _ _ _ _ h => h⟩

theorem Inv.readOnly {h : History} {list : List (Nat × Method)} (hi : Inv D h) (ht : h.time ≤ now)
    (hp : ListPlain D now list h.data.readings)
    (hs : readAttributes D idl now list none h.data = .ok (state,d)) :
    Inv D ⟨d,remember D list d.readings h.good,h.lastSet,now⟩ := by
  obtain ⟨p,hpass,hreply⟩ := list_read_ok hs
  obtain ⟨htime,hkernel,hon,halarm⟩ := hi.stamped.later ht
  exact ⟨((list_call (list_left hp hpass)).congr hreply.quality).good hi.good,
    hreply.stamped ⟨htime,hkernel,hon,halarm⟩⟩

theorem Inv.readState {h : History} (hi : Inv D h) (ht : h.time ≤ now)
    (hl : ListPlain D now list h.data.readings)
    (hp : ∀ i ∈ alarmList D, ∀ a, D.attrs[i]? = some a → Plain a (methods i))
    (hs : readAttributes D idl now list (some methods) h.data = .ok (state,d)) :
    Inv D ⟨d,remember D (list ++ ownReads D (readList D list) methods h.data) d.readings h.good,
      h.lastSet,now⟩ := by
  obtain ⟨p,d₁,hpass,hstate,hreply⟩ := state_read_ok hs
  obtain ⟨htime,hkernel,hon,halarm⟩ := hi.stamped.later ht
  have hstamped : Stamped {h.data with readings := (writePass D list p.2).2} h.lastSet now :=
    ⟨htime,hkernel,hon,halarm⟩
  obtain ⟨hleft,hc,hn⟩ := state_given (list_left hl hpass) hp hstate
  exact ⟨(hleft.congr hreply.quality).good hi.good,hreply.stamped (state_stamped hstamped hc hn)⟩

theorem Inv.devState {h : History} (hi : Inv D h) (ht : h.time ≤ now)
    (hp : ∀ i ∈ alarmList D, ∀ a, D.attrs[i]? = some a → Plain a (methods i))
    (hs : devState D now [] methods h.data = .ok (state,d)) :
    Inv D ⟨d,remember D (ownReads D [] methods h.data) d.readings h.good,h.lastSet,now⟩ := by
  obtain ⟨hleft,hc,hn⟩ := state_given nothing_left hp hs
  exact ⟨hleft.good hi.good,state_stamped (hi.stamped.later ht) hc hn⟩

theorem reached_inv {h : History} (hr : Reached D h) : Inv D h := by
  induction hr with
  | start state now h =>
    exact ⟨⟨fun _ _ _ => rfl,fun _ _ _ _ => rfl⟩,h,h.le,fun hl => (nomatch hl),fun hl => (nomatch hl)⟩
  | call c d hr ht hp hs ih =>
    cases c with
    | readAttributes idl now list state =>
      obtain ⟨⟨s,d'⟩,hok,rfl⟩ := except_map_ok.mp hs
      cases state with
      | none => exact ih.readOnly ht hp.1 hok
      | some methods => exact ih.readState ht hp.1 (hp.2 methods rfl) hok
    | devState now methods =>
      obtain ⟨⟨s,d'⟩,hok,rfl⟩ := except_map_ok.mp hs
      exact ih.devState ht hp hok
    | setState now newState =>
      cases hs
      exact ⟨(@list_call D now [] _ _ nothing_left).good ih.good,(ih.stamped.later ht).set newState⟩

end Runs

end CppTango.Device.Alarm
