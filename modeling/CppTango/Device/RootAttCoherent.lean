import CppTango.Device.RootAtt

namespace CppTango.Device.RootAtt

open CppTango.Lib Client.Connecting

section Spec

/-- The identifiers in the two maps. -/
def recorded (s : Registry) : Multiset Nat := held (fun id => {id}) s.mapEventId + held ids s.mapEventIdUser

structure Coherent (s : Registry) : Prop where
  events : ∀ k, k ∈ s.mapEventId ↔ k ∈ s.mapAttrdesc
  devices : ∀ d, d ∈ s.dps ↔ ∃ k ∈ s.mapAttrdesc, devOf k = d
  locals : ∀ d, d ∈ s.localDis ↔ ∃ k n, s.mapAttrdesc.lookup k = some n ∧ n.localAtt.dev = d
  users : ∀ k evs, s.mapEventIdUser.lookup k = some evs → k ∈ s.mapAttrdesc ∧ evs ≠ []
  recorded : recorded s = s.subscribed
  nodup : s.subscribed.Nodup
  issued : ∀ id ∈ s.subscribed, 0 < id ∧ id ≤ s.subscribeEventId

theorem coherent_empty : Coherent .empty := by
  refine ⟨fun _ => Iff.rfl,?_,?_,?_,rfl,Multiset.nodup_zero,?_⟩
  · intro d
    exact iff_of_false (Finset.notMem_empty d) (fun ⟨k,hk,_⟩ => AList.notMem_empty k hk)
  · intro d
    exact iff_of_false (Finset.notMem_empty d) (fun ⟨_,_,hl,_⟩ => by cases hl)
  · intro k evs h
    cases h
  · intro id h
    exact absurd h (Multiset.notMem_zero id)

end Spec

section Changes
variable {s : Registry} {root : Text} {n : NameFwdAttr} {evs : List UserEvent}

/-- A descriptor is given another error kind, or lost. -/
theorem Coherent.setDesc (h : Coherent s) (hl : s.mapAttrdesc.lookup root = some n) (err : Option FwdAttError) :
    Coherent {s with mapAttrdesc := s.mapAttrdesc.insert root {n with fwdAttr := err}} := by
  have hmem : ∀ k, k ∈ s.mapAttrdesc.insert root {n with fwdAttr := err} ↔ k ∈ s.mapAttrdesc := by
    intro k
    rw [AList.mem_insert,or_iff_right_iff_imp]
    rintro rfl
    exact mem_of_lookup hl
  refine ⟨fun k => (h.events k).trans (hmem k).symm,?_,?_,?_,h.recorded,h.nodup,h.issued⟩
  · intro d
    simp only [hmem]
    exact h.devices d
  · intro d
    simp only [lookup_insert_iff]
    rw [h.locals d]
    constructor
    · rintro ⟨k,m,hk,hd⟩
      by_cases he : k = root
      · subst he
        cases hl.symm.trans hk
        exact ⟨k,_,.inl ⟨rfl,rfl⟩,hd⟩
      · exact ⟨k,m,.inr ⟨he,hk⟩,hd⟩
    · rintro ⟨k,m,⟨-,rfl⟩ | ⟨-,hk⟩,hd⟩
      · exact ⟨root,n,hl,hd⟩
      · exact ⟨k,m,hk,hd⟩
  · intro k evs hk
    exact (h.users k evs hk).imp_left (hmem k).mpr

/-- An event more, with the next identifier. -/
theorem next_recorded (h : Coherent s) {t : Registry} (hid : t.subscribeEventId = s.subscribeEventId + 1)
    (hsub : t.subscribed = (s.subscribeEventId + 1) ::ₘ s.subscribed) :
    t.subscribed.Nodup ∧ ∀ id ∈ t.subscribed, 0 < id ∧ id ≤ t.subscribeEventId := by
  rw [hsub,hid]
  constructor
  · rw [Multiset.nodup_cons]
    refine ⟨fun hm => ?_,h.nodup⟩
    have := (h.issued _ hm).2
    omega
  · intro id hm
    rcases Multiset.mem_cons.mp hm with rfl | hm
    · omega
    · have := h.issued id hm
      omega

theorem Coherent.register (h : Coherent s) {root : AttName} (hk : root.full ∉ s.mapAttrdesc) (localAtt : AttName)
    (att : FwdAttError) :
    Coherent (recordEvent root.full (addAtt root.full localAtt att {s with dps := insert root.dev s.dps})) := by
  have hk' : root.full ∉ s.mapEventId := fun hm => hk ((h.events _).mp hm)
  obtain ⟨hnodup,hissued⟩ := next_recorded h
    (t := recordEvent root.full (addAtt root.full localAtt att {s with dps := insert root.dev s.dps})) rfl rfl
  refine ⟨?_,?_,?_,?_,?_,hnodup,hissued⟩
  all_goals unfold recordEvent addAtt
  all_goals simp only [insertNew_of_notMem hk,insertNew_of_notMem hk']
  · intro k
    rw [AList.mem_insert,AList.mem_insert,h.events]
  · intro d
    rw [Finset.mem_insert,h.devices]
    constructor
    · rintro (rfl | ⟨k,hm,hd⟩)
      · exact ⟨root.full,(AList.mem_insert _).mpr (.inl rfl),devOf_full root⟩
      · exact ⟨k,(AList.mem_insert _).mpr (.inr hm),hd⟩
    · rintro ⟨k,hm,hd⟩
      rcases (AList.mem_insert _).mp hm with rfl | hm
      · exact .inl (hd.symm.trans (devOf_full root))
      · exact .inr ⟨k,hm,hd⟩
  · intro d
    simp only [Finset.mem_insert,lookup_insert_iff,h.locals]
    constructor
    · rintro (rfl | ⟨k,m,hm,hd⟩)
      · exact ⟨root.full,_,.inl ⟨rfl,rfl⟩,rfl⟩
      · exact ⟨k,m,.inr ⟨fun he => hk (he ▸ mem_of_lookup hm),hm⟩,hd⟩
    · rintro ⟨k,m,⟨-,rfl⟩ | ⟨-,hm⟩,hd⟩
      · exact .inl hd.symm
      · exact .inr ⟨k,m,hm,hd⟩
  · intro k evs hm
    exact (h.users k evs hm).imp_left (fun hm => (AList.mem_insert _).mpr (.inr hm))
  · unfold RootAtt.recorded
    rw [held_insert_new hk',Multiset.singleton_add,Multiset.cons_add]
    exact congrArg _ h.recorded

theorem Coherent.recordUser (h : Coherent s) (hk : root ∈ s.mapAttrdesc) (et : EventType) :
    Coherent (recordUser root et s) := by
  obtain ⟨hnodup,hissued⟩ := next_recorded h (t := RootAtt.recordUser root et s) rfl rfl
  refine ⟨h.events,h.devices,h.locals,?_,?_,hnodup,hissued⟩
  · intro k evs hm
    rcases lookup_insert_iff.mp hm with ⟨rfl,rfl⟩ | ⟨-,hm⟩
    · exact ⟨hk,List.append_ne_nil_of_right_ne_nil _ (List.cons_ne_nil _ _)⟩
    · exact h.users k evs hm
  · have hids : ∀ evs : List UserEvent, ids (evs ++ [⟨et,s.subscribeEventId + 1⟩]) =
        (s.subscribeEventId + 1) ::ₘ ids evs := by
      intro evs
      unfold ids
      rw [List.map_append,← Multiset.coe_add,add_comm]
      rfl
    have hheld : held ids s.mapEventIdUser =
        ids ((s.mapEventIdUser.lookup root).getD []) + held ids (s.mapEventIdUser.erase root) := by
      cases hl : s.mapEventIdUser.lookup root with
      | none =>
        rw [erase_of_notMem (AList.lookup_eq_none.mp hl)]
        exact (zero_add _).symm
      | some evs => exact held_erase hl
    change held _ s.mapEventId + held ids (s.mapEventIdUser.insert root _) = _ ::ₘ s.subscribed
    rw [held_insert,hids,Multiset.cons_add,← hheld,Multiset.add_cons]
    exact congrArg _ h.recorded

/-- Some events of an attribute are unsubscribed, and its entry goes with the last one. -/
theorem Coherent.unsubUser (h : Coherent s) (hl : s.mapEventIdUser.lookup root = some evs) (kept : List UserEvent)
    {gone : Multiset Nat} (hsplit : ids evs = ids kept + gone) :
    Coherent {s with
      mapEventIdUser := if kept.isEmpty then s.mapEventIdUser.erase root else s.mapEventIdUser.insert root kept
      subscribed := s.subscribed - gone} := by
  have hle : s.subscribed - gone ≤ s.subscribed := Multiset.sub_le_self _ _
  refine ⟨h.events,h.devices,h.locals,?_,?_,Multiset.nodup_of_le hle h.nodup,
    fun id hm => h.issued id (Multiset.mem_of_le hle hm)⟩
  · intro k evs' hm
    by_cases he : kept.isEmpty = true
    · rw [if_pos he] at hm
      exact h.users k evs' (lookup_erase_iff.mp hm).2
    · rw [if_neg he] at hm
      rcases lookup_insert_iff.mp hm with ⟨rfl,rfl⟩ | ⟨-,hm⟩
      · exact ⟨(h.users k evs hl).1,fun hn => he (by rw [hn]; rfl)⟩
      · exact h.users k evs' hm
  · have hheld : held ids (if kept.isEmpty then s.mapEventIdUser.erase root else s.mapEventIdUser.insert root kept) =
        ids kept + held ids (s.mapEventIdUser.erase root) := by
      cases kept with
      | nil => exact (zero_add _).symm
      | cons e kept => exact held_insert
    have hall : RootAtt.recorded s =
        held (fun id => {id}) s.mapEventId + (ids kept + held ids (s.mapEventIdUser.erase root)) + gone := by
      unfold RootAtt.recorded
      rw [held_erase hl,hsplit,add_right_comm (ids kept),← add_assoc]
    change held _ s.mapEventId + held ids _ = s.subscribed - gone
    rw [hheld,← h.recorded,hall,add_tsub_cancel_right]

theorem usedElsewhere_iff {dev : Text} :
    usedElsewhere dev s = true ↔ ∃ k n, s.mapAttrdesc.lookup k = some n ∧ n.localAtt.dev = dev := by
  unfold usedElsewhere
  rw [List.any_eq_true]
  constructor
  · rintro ⟨⟨k,n⟩,hm,hd⟩
    exact ⟨k,n,AList.mem_lookup_iff.mpr hm,of_decide_eq_true hd⟩
  · rintro ⟨k,n,hl,hd⟩
    exact ⟨⟨k,n⟩,AList.mem_lookup_iff.mp hl,decide_eq_true hd⟩

/-- An attribute is the last one of its device exactly where the count is one. -/
theorem other_iff {root : AttName} (h : root.full ∈ s.mapAttrdesc) :
    (∃ k ∈ s.mapAttrdesc.erase root.full, devOf k = root.dev) ↔ countRootDev root.dev s ≠ 1 := by
  have hcount := countP_keys_erase (fun k => decide (devOf k = root.dev)) h
  rw [if_pos (decide_eq_true (devOf_full root))] at hcount
  unfold countRootDev
  rw [hcount,ne_eq,Nat.add_eq_right,← ne_eq,← Nat.pos_iff_ne_zero,List.countP_pos_iff]
  simp only [decide_eq_true_eq,AList.mem_keys]

theorem erase_devices (h : Coherent s) {root : AttName} (hk : root.full ∈ s.mapAttrdesc) (d : Text) :
    d ∈ (if countRootDev root.dev s = 1 then s.dps.erase root.dev else s.dps) ↔
      ∃ k ∈ s.mapAttrdesc.erase root.full, devOf k = d := by
  rw [← ite_not]
  refine mem_uses h.devices (fun k hm => (AList.mem_erase.mp hm).2) (fun k hm => ?_) (other_iff hk).symm d
  by_cases he : k = root.full
  · exact .inr (he ▸ devOf_full root)
  · exact .inl (AList.mem_erase.mpr ⟨he,hm⟩)

theorem erase_locals (h : Coherent s) (hl : s.mapAttrdesc.lookup root = some n) (d : Text) :
    d ∈ (if usedElsewhere n.localAtt.dev {s with mapAttrdesc := s.mapAttrdesc.erase root} then s.localDis
        else s.localDis.erase n.localAtt.dev) ↔
      ∃ k m, (s.mapAttrdesc.erase root).lookup k = some m ∧ m.localAtt.dev = d := by
  have hall : ∀ d, d ∈ s.localDis ↔
      ∃ e : Text × NameFwdAttr, s.mapAttrdesc.lookup e.1 = some e.2 ∧ e.2.localAtt.dev = d := by
    intro d
    rw [h.locals,Prod.exists]
  have hused : usedElsewhere n.localAtt.dev {s with mapAttrdesc := s.mapAttrdesc.erase root} = true ↔
      ∃ e : Text × NameFwdAttr, (s.mapAttrdesc.erase root).lookup e.1 = some e.2 ∧
        e.2.localAtt.dev = n.localAtt.dev := by
    rw [usedElsewhere_iff,Prod.exists]
  have hpairs := mem_uses hall (fun e he => (lookup_erase_iff.mp he).2) ?_ hused d
  · rw [Prod.exists] at hpairs
    exact hpairs
  · rintro ⟨k,m⟩ hk
    by_cases he : k = root
    · subst he
      cases hl.symm.trans hk
      exact .inr rfl
    · exact .inl (lookup_erase_iff.mpr ⟨he,hk⟩)

/-- An attribute without user events goes out of all the maps. -/
theorem Coherent.unregister (h : Coherent s) {root : AttName} {id : Nat}
    (hid : s.mapEventId.lookup root.full = some id)
    (hu : s.mapEventIdUser.lookup root.full = none) {localDis dps : Finset Text}
    (hlocal : ∀ d, d ∈ localDis ↔
      ∃ k m, (s.mapAttrdesc.erase root.full).lookup k = some m ∧ m.localAtt.dev = d)
    (hdps : ∀ d, d ∈ dps ↔ ∃ k ∈ s.mapAttrdesc.erase root.full, devOf k = d) :
    Coherent {s with
      mapAttrdesc := s.mapAttrdesc.erase root.full
      localDis := localDis
      dps := dps
      mapEventId := s.mapEventId.erase root.full
      subscribed := s.subscribed.erase id} := by
  have hle : s.subscribed.erase id ≤ s.subscribed := Multiset.erase_le _ _
  refine ⟨?_,hdps,hlocal,?_,?_,Multiset.nodup_of_le hle h.nodup,
    fun id hm => h.issued id (Multiset.mem_of_le hle hm)⟩
  · intro k
    rw [AList.mem_erase,AList.mem_erase,h.events]
  · intro k evs hk
    refine (h.users k evs hk).imp_left (fun hm => AList.mem_erase.mpr ⟨?_,hm⟩)
    rintro rfl
    cases hu.symm.trans hk
  · have hall : RootAtt.recorded s =
        id ::ₘ (held (fun id => {id}) (s.mapEventId.erase root.full) + held ids s.mapEventIdUser) := by
      unfold RootAtt.recorded
      rw [held_erase hid,Multiset.singleton_add,Multiset.cons_add]
    change held _ (s.mapEventId.erase root.full) + held ids s.mapEventIdUser = s.subscribed.erase id
    rw [← h.recorded,hall,Multiset.erase_cons_head]

end Changes

section Calls
variable {s : Registry}

/-- A call that meets no fault and leaves the registry coherent. -/
def Fine (r : Result) : Prop := (∀ f, r.2 ≠ .fault f) ∧ Coherent r.1

theorem fine_returned (h : Coherent s) : Fine (s,.returned) := ⟨fun _ => Outcome.noConfusion,h⟩

theorem fine_threw (h : Coherent s) (e : DevErrorList) : Fine (s,.threw e) := ⟨fun _ => Outcome.noConfusion,h⟩

theorem clearAttrdesc_fine (h : Coherent s) (root : AttName) : Fine (clearAttrdesc root s) := by
  unfold clearAttrdesc
  cases hl : s.mapAttrdesc.lookup root.full with
  | none => exact fine_threw h _
  | some n => exact fine_returned (h.setDesc hl none)

theorem dropUser_coherent (h : Coherent s) (root : Text) : Coherent (dropUser root s) := by
  unfold dropUser
  cases hl : s.mapEventIdUser.lookup root with
  | none => exact h
  | some evs => exact h.unsubUser hl [] (zero_add _).symm

theorem dropUser_lookup (root : Text) (s : Registry) : (dropUser root s).mapEventIdUser.lookup root = none := by
  unfold dropUser
  cases hl : s.mapEventIdUser.lookup root with
  | none => exact hl
  | some evs => exact AList.lookup_erase root s.mapEventIdUser

theorem removeAtt_eq (h : Coherent s) {root : Text} {n : NameFwdAttr} (hl : s.mapAttrdesc.lookup root = some n) :
    removeAtt root s =
      ({s with
        mapAttrdesc := s.mapAttrdesc.erase root
        localDis := if usedElsewhere n.localAtt.dev {s with mapAttrdesc := s.mapAttrdesc.erase root} then s.localDis
          else s.localDis.erase n.localAtt.dev},.returned) := by
  have hlocal : n.localAtt.dev ∈ s.localDis := (h.locals _).mpr ⟨root,n,hl,rfl⟩
  unfold removeAtt
  rw [hl]
  simp only [if_pos hlocal]
  split
  · rfl
  · rfl

theorem removed_fine (h : Coherent s) {root : AttName} (hu : s.mapEventIdUser.lookup root.full = none) :
    Fine (andThen (if countRootDev root.dev s ≠ 0 then removeAtt root.full s else (s,.returned))
      (fun t => (dropEvent root (countRootDev root.dev s) t,.returned))) := by
  cases hl : s.mapAttrdesc.lookup root.full with
  | none =>
    split
    · unfold removeAtt
      rw [hl]
      exact fine_threw h _
    · have hid : s.mapEventId.lookup root.full = none := by
        rw [AList.lookup_eq_none,h.events]
        exact AList.lookup_eq_none.mp hl
      unfold andThen dropEvent
      simp only [hid]
      exact fine_returned h
  | some n =>
    have hmem := mem_of_lookup hl
    have hco : countRootDev root.dev s ≠ 0 := by
      unfold countRootDev
      rw [← Nat.pos_iff_ne_zero,List.countP_pos_iff]
      exact ⟨root.full,AList.mem_keys.mp hmem,decide_eq_true (devOf_full root)⟩
    have hdev : root.dev ∈ s.dps := (h.devices _).mpr ⟨root.full,hmem,devOf_full root⟩
    obtain ⟨id,hid⟩ := Option.isSome_iff_exists.mp (AList.lookup_isSome.mpr ((h.events _).mpr hmem))
    rw [if_pos hco,removeAtt_eq h hl]
    unfold andThen dropEvent
    simp only [hid,if_pos hdev]
    apply fine_returned
    exact h.unregister hid hu (erase_locals h hl) (erase_devices h hmem)

theorem removeRootAtt_fine (h : Coherent s) (root : AttName) : Fine (removeRootAtt root s) := by
  unfold removeRootAtt
  by_cases hdev : root.dev ∈ s.dps
  · rw [if_pos hdev]
    exact removed_fine (dropUser_coherent h _) (dropUser_lookup _ s)
  · rw [if_neg hdev]
    apply removed_fine h
    rw [Option.eq_none_iff_forall_ne_some]
    intro evs hl
    exact hdev ((h.devices _).mpr ⟨root.full,(h.users _ _ hl).1,devOf_full root⟩)

end Calls

section AutoUnsub
variable {now : Int} {sub : EventType → Int} {attrByName : Text → Text → Except DevErrorList (EventType → Int)}
variable {s : Registry}

theorem unsubOld_ids (delta : Int) (evs : List UserEvent) :
    ids evs = ids (unsubOld now sub delta evs).1 + ids (unsubOld now sub delta evs).2 := by
  have hcons : ∀ e evs, ids (e :: evs) = e.eventId ::ₘ ids evs := fun _ _ => rfl
  fun_induction unsubOld now sub delta evs with
  | case1 => rfl
  | case2 _ e => rfl
  | case3 _ e _ _ e' evs ih =>
    simp only [Prod.map_fst,Prod.map_snd,hcons,ih,Multiset.cons_add,Multiset.add_cons]
  | case4 _ e evs _ _ ih =>
    simp only [Prod.map_fst,Prod.map_snd,hcons,id,Multiset.cons_add]
    rw [← ih]

/-- Nothing is kept of a single event that is old; an event behind an old one is. -/
theorem unsubOld_nil {evs : List UserEvent} (hne : evs ≠ []) :
    (unsubOld now sub 0 evs).1 = [] ↔
      ∃ e, evs = [e] ∧ Event.resubscribePeriod ≤ deltaT now sub 0 e.eventType := by
  cases evs with
  | nil => exact absurd rfl hne
  | cons e evs =>
    unfold unsubOld
    by_cases hold : Event.resubscribePeriod ≤ deltaT now sub 0 e.eventType
    · cases evs with
      | nil => simp [hold]
      | cons e' evs => simp [hold]
    · simp only [if_neg hold,Prod.map_fst]
      refine iff_of_false (List.cons_ne_nil _ _) ?_
      rintro ⟨e',he,hold'⟩
      cases he
      exact hold hold'

/-- The attribute of an entry is found in its local device. -/
def found (attrByName : Text → Text → Except DevErrorList (EventType → Int)) (s : Registry) (root : Text) : Bool :=
  match s.mapAttrdesc.lookup root with
  | none => false
  | some n => (attrByName n.localAtt.dev n.localAtt.att).toBool

/-- The entry of an attribute is one event, whose last subscription is too old. -/
def LastOld (now : Int) (attrByName : Text → Text → Except DevErrorList (EventType → Int)) (s : Registry)
    (root : Text) : Prop :=
  ∃ n sub e, s.mapAttrdesc.lookup root = some n ∧ attrByName n.localAtt.dev n.localAtt.att = .ok sub ∧
    s.mapEventIdUser.lookup root = some [e] ∧ Event.resubscribePeriod ≤ deltaT now sub 0 e.eventType

theorem unsubAll_fine (h : Coherent s) {roots : List Text} (hn : roots.Nodup)
    (hmem : ∀ root ∈ roots, root ∈ s.mapEventIdUser) :
    Fine (unsubAll now attrByName roots s) ↔
      ∀ root ∈ roots.takeWhile (found attrByName s), ¬ LastOld now attrByName s root := by
  induction roots generalizing s with
  | nil => exact iff_of_true (fine_returned h) (fun _ hr => absurd hr List.not_mem_nil)
  | cons root roots ih =>
    rw [List.nodup_cons] at hn
    obtain ⟨evs,hevs⟩ := Option.isSome_iff_exists.mp (AList.lookup_isSome.mpr (hmem root List.mem_cons_self))
    obtain ⟨hroot,hne⟩ := h.users root evs hevs
    obtain ⟨n,hl⟩ := Option.isSome_iff_exists.mp (AList.lookup_isSome.mpr hroot)
    have hlocal : n.localAtt.dev ∈ s.localDis := (h.locals _).mpr ⟨root,n,hl,rfl⟩
    have hdev : devOf root ∈ s.dps := (h.devices _).mpr ⟨root,hroot,rfl⟩
    rw [unsubAll]
    simp only [hl,devOf_full,attOf_full,if_pos hlocal]
    cases hatt : attrByName n.localAtt.dev n.localAtt.att with
    | error e =>
      have hf : found attrByName s root = false := by
        unfold found
        rw [hl]
        simp only [hatt]
        rfl
      rw [List.takeWhile_cons_of_neg (by rw [hf]; exact Bool.false_ne_true)]
      exact iff_of_true (fine_threw h e) (fun _ hr => absurd hr List.not_mem_nil)
    | ok sub =>
      have hf : found attrByName s root = true := by
        unfold found
        rw [hl]
        simp only [hatt]
        rfl
      have hlast : LastOld now attrByName s root ↔ (unsubOld now sub 0 evs).1 = [] := by
        rw [unsubOld_nil hne]
        constructor
        · rintro ⟨n',sub',e,hl',hatt',hevs',hold⟩
          cases hl.symm.trans hl'
          cases hatt.symm.trans hatt'
          cases hevs.symm.trans hevs'
          exact ⟨e,rfl,hold⟩
        · rintro ⟨e,rfl,hold⟩
          exact ⟨n,sub,e,hl,hatt,hevs,hold⟩
      rw [List.takeWhile_cons_of_pos hf,List.forall_mem_cons,hlast]
      simp only [hevs,Option.getD_some,hdev,not_true_eq_false,and_false,if_false]
      by_cases hk : (unsubOld now sub 0 evs).1 = []
      · rw [if_pos hk]
        exact iff_of_false (fun hfine => hfine.1 _ rfl) (fun hr => hr.1 hk)
      · have hs := h.unsubUser hevs (unsubOld now sub 0 evs).1 (unsubOld_ids 0 evs)
        rw [if_neg (fun he => hk (List.isEmpty_iff.mp he))] at hs
        rw [if_neg hk,ih hs hn.2,and_iff_right hk]
        · apply forall₂_congr
          intro r hr
          have hr : r ≠ root := by
            rintro rfl
            exact hn.1 (List.takeWhile_subset _ hr)
          unfold LastOld
          simp only [AList.lookup_insert_ne hr]
        · intro r hr
          exact (AList.mem_insert _).mpr (.inr (hmem r (List.mem_cons_of_mem _ hr)))

theorem autoUnsub_fine (h : Coherent s) :
    Fine (autoUnsub now attrByName s) ↔
      ∀ root ∈ (roots s).takeWhile (found attrByName s), ¬ LastOld now attrByName s root := by
  have hperm : (roots s).Perm s.mapEventIdUser.keys := List.perm_insertionSort _ _
  exact unsubAll_fine h (hperm.nodup_iff.mpr s.mapEventIdUser.keys_nodup)
    (fun root hr => AList.mem_keys.mpr (hperm.subset hr))

end AutoUnsub

end CppTango.Device.RootAtt
