import CppTango.Device.RootAttCoherent

namespace CppTango.Device.RootAtt

open CppTango.Lib Client.Connecting

section Spec

/-- An `add_root_att` is refused as a double use. -/
def Refused (c : AddRootAtt) (s : Registry) : Prop := c.root.full ∈ s.mapAttrdesc ∧ c.restarting = false

/-- Nothing recorded for an attribute is changed. -/
structure Same (root : Text) (s t : Registry) : Prop where
  mapAttrdesc : t.mapAttrdesc.lookup root = s.mapAttrdesc.lookup root
  mapEventId : t.mapEventId.lookup root = s.mapEventId.lookup root
  mapEventIdUser : t.mapEventIdUser.lookup root = s.mapEventIdUser.lookup root

structure Right (s : Registry) (c : Call) : Prop where
  fine : Fine (c.run s)
  same : ∀ a, c = .addRootAtt a → Refused a s → Same a.root.full s (after s c)

/-- A call that stays away from what goes wrong: two failed subscriptions, a double use that was not noted before, the
events of an attribute that is not there, and the last event of an attribute going by itself. -/
def Meets (s : Registry) : Call → Prop
  | .addRootAtt c =>
    (Refused c s → (s.mapAttrdesc.lookup c.root.full).bind NameFwdAttr.fwdAttr = some .doubleUsed) ∧
      (c.root.full ∉ s.mapAttrdesc → ∀ t, c.openProxy s = .ok t → c.first = none ∨ c.second = none)
  | .clearAttrdesc _ => True
  | .removeRootAtt _ => True
  | .subscribeUserEvent root _ first second =>
    root.dev ∈ s.dps → userThrown first second = none → root.full ∈ s.mapAttrdesc
  | .unsubscribeUserEvent root _ => root.dev ∈ s.dps → root.full ∈ s.mapEventIdUser
  | .autoUnsub now attrByName => ∀ root ∈ (roots s).takeWhile (found attrByName s), ¬ LastOld now attrByName s root

end Spec

section Steps
variable {s : Registry}

theorem right_iff_fine {c : Call} (hc : ∀ a, c ≠ .addRootAtt a) : Right s c ↔ Fine (c.run s) :=
  ⟨Right.fine,fun h => ⟨h,fun a ha => absurd ha (hc a)⟩⟩

theorem openProxy_ok {c : AddRootAtt} {t : Registry} (h : c.openProxy s = .ok t) :
    t = {s with dps := insert c.root.dev s.dps} := by
  unfold AddRootAtt.openProxy at h
  split at h
  · rename_i hdev
    cases h
    rw [Finset.insert_eq_of_mem hdev]
  · split at h
    · cases h
    · split at h
      · cases h
      · cases h
        rfl

theorem updateErrKind_eq {root : Text} {n : NameFwdAttr} {kind : FwdAttError} (err : FwdAttError)
    (hl : s.mapAttrdesc.lookup root = some n) (hn : n.fwdAttr = some kind) :
    updateErrKind root err s =
      ({s with mapAttrdesc := s.mapAttrdesc.insert root {n with fwdAttr := some err}},.returned) := by
  unfold updateErrKind
  simp only [hl,hn]

/-- A new attribute has a descriptor, so that its error kind can be set. -/
theorem new_lookup {root : Text} (hk : root ∉ s.mapAttrdesc) (localAtt : AttName) (att : FwdAttError) :
    (recordEvent root (addAtt root localAtt att s)).mapAttrdesc.lookup root = some ⟨localAtt,some att⟩ := by
  unfold recordEvent addAtt
  rw [insertNew_of_notMem hk]
  exact AList.lookup_insert s.mapAttrdesc

theorem subscribe_fine (h : Coherent s) (c : AddRootAtt) (hk : c.root.full ∉ s.mapAttrdesc) :
    Fine (c.subscribe {s with dps := insert c.root.dev s.dps}).2 ↔ c.first = none ∨ c.second = none := by
  have hreg := h.register hk c.localAtt c.attdesc
  unfold AddRootAtt.subscribe
  cases hfirst : c.first with
  | none => exact iff_of_true (fine_returned hreg) (.inl rfl)
  | some e =>
    cases hsecond : c.second with
    | some e' =>
      refine iff_of_false (fun hfine => ?_) (by simp)
      have hk' : c.root.full ∈ s.mapEventId := by
        apply (hfine.2.events c.root.full).mpr
        change c.root.full ∈ insertNew _ _ _
        rw [insertNew_of_notMem hk]
        exact (AList.mem_insert _).mpr (.inl rfl)
      exact hk ((h.events _).mp hk')
    | none =>
      refine iff_of_true ?_ (.inr rfl)
      have hl := new_lookup (s := {s with dps := insert c.root.dev s.dps}) hk c.localAtt c.attdesc
      simp only [updateErrKind_eq _ hl rfl]
      exact fine_threw (hreg.setDesc hl _) _

theorem addRootAtt_again (h : Coherent s) {c : AddRootAtt} (hk : c.root.full ∈ s.mapAttrdesc) :
    (Call.addRootAtt c).run s =
      if c.restarting then (s,.returned)
      else andThen (updateErrKind c.root.full .doubleUsed s) (fun s => (s,.threw (doubleUsed c.root.full))) := by
  have hdev : c.root.dev ∈ s.dps := (h.devices _).mpr ⟨_,hk,devOf_full c.root⟩
  have hopen : c.openProxy s = .ok s := if_pos hdev
  change (addRootAtt c s).2 = _
  unfold addRootAtt
  simp only [hopen,if_pos hk]
  split
  · rfl
  · rfl

/-- Where nothing is refused, there is nothing to leave as it was. -/
theorem right_of_accepted {c : AddRootAtt} (hnot : ¬ Refused c s) :
    Right s (.addRootAtt c) ↔ Fine ((Call.addRootAtt c).run s) := by
  refine ⟨Right.fine,fun hfine => ⟨hfine,?_⟩⟩
  rintro a ha hr
  cases ha
  exact absurd hr hnot

theorem addRootAtt_new (h : Coherent s) {c : AddRootAtt} (hk : c.root.full ∉ s.mapAttrdesc) :
    Fine ((Call.addRootAtt c).run s) ↔ ∀ t, c.openProxy s = .ok t → c.first = none ∨ c.second = none := by
  change Fine (addRootAtt c s).2 ↔ _
  unfold addRootAtt
  cases hopen : c.openProxy s with
  | error e => exact iff_of_true (fine_threw h e.2) (fun t ht => by cases ht)
  | ok t =>
    simp only [Except.ok.injEq,forall_eq']
    rw [openProxy_ok hopen,if_neg hk]
    exact subscribe_fine h c hk

/-- The first user of a root attribute keeps its error kind only if it was a double use before. -/
theorem addRootAtt_refused (h : Coherent s) {c : AddRootAtt} (hr : Refused c s) :
    Right s (.addRootAtt c) ↔ (s.mapAttrdesc.lookup c.root.full).bind NameFwdAttr.fwdAttr = some .doubleUsed := by
  have hrun := addRootAtt_again h hr.1
  rw [if_neg (by rw [hr.2]; exact Bool.false_ne_true)] at hrun
  obtain ⟨n,hl⟩ := Option.isSome_iff_exists.mp (AList.lookup_isSome.mpr hr.1)
  rw [hl,Option.bind_some]
  cases hn : n.fwdAttr with
  | none =>
    have hfault : (Call.addRootAtt c).run s = (s,.fault .nullPointer) := by
      rw [hrun]
      unfold updateErrKind
      simp only [hl,hn]
      rfl
    exact iff_of_false (fun hr => hr.fine.1 .nullPointer (by rw [hfault])) (fun hk => by cases hk)
  | some kind =>
    rw [updateErrKind_eq .doubleUsed hl hn] at hrun
    constructor
    · intro hright
      have hsame := (hright.same c rfl hr).mapAttrdesc
      unfold after at hsame
      rw [hrun,hl] at hsame
      rw [← hn]
      have hset := (AList.lookup_insert s.mapAttrdesc).symm.trans hsame
      exact (congrArg (fun o => Option.bind o NameFwdAttr.fwdAttr) hset).symm
    · intro hk
      have hset : (⟨n.localAtt,some .doubleUsed⟩ : NameFwdAttr) = n := by rw [← hk,← hn]
      refine ⟨?_,?_⟩
      · rw [hrun]
        exact fine_threw (h.setDesc hl _) _
      · intro a ha _
        cases ha
        unfold after
        rw [hrun]
        refine ⟨?_,rfl,rfl⟩
        change AList.lookup _ (AList.insert _ _ _) = _
        rw [AList.lookup_insert,hset,hl]

theorem addRootAtt_right (h : Coherent s) (c : AddRootAtt) :
    Right s (.addRootAtt c) ↔ Meets s (.addRootAtt c) := by
  by_cases hr : Refused c s
  · rw [addRootAtt_refused h hr]
    exact ⟨fun hk => ⟨fun _ => hk,fun hn => absurd hr.1 hn⟩,fun hm => hm.1 hr⟩
  · rw [right_of_accepted hr]
    by_cases hk : c.root.full ∈ s.mapAttrdesc
    · have hres : c.restarting = true := by
        rw [← Bool.not_eq_false]
        exact fun hf => hr ⟨hk,hf⟩
      refine iff_of_true ?_ ⟨fun h => absurd h hr,fun hn => absurd hk hn⟩
      rw [addRootAtt_again h hk,if_pos hres]
      exact fine_returned h
    · rw [addRootAtt_new h hk]
      exact ⟨fun hm => ⟨fun h => absurd h hr,fun _ => hm⟩,fun hm => hm.2 hk⟩

theorem subscribeUserEvent_fine (h : Coherent s) (root : AttName) (et : EventType)
    (first second : Option DevErrorList) :
    Fine (subscribeUserEvent root et first second s) ↔ Meets s (.subscribeUserEvent root et first second) := by
  unfold subscribeUserEvent Meets
  by_cases hdev : root.dev ∈ s.dps
  · simp only [forall_const,hdev]
    cases ht : userThrown first second with
    | some e => exact iff_of_true (fine_threw h e) (by simp)
    | none =>
      simp only [forall_const]
      constructor
      · intro hfine
        exact (hfine.2.users root.full _ (AList.lookup_insert s.mapEventIdUser)).1
      · intro hk
        exact fine_returned (h.recordUser hk et)
  · rw [if_neg hdev]
    exact iff_of_true (fine_threw h _) (fun hm => absurd hm hdev)

theorem ids_eraseP {p : UserEvent → Bool} {evs : List UserEvent} {e : UserEvent} (h : evs.find? p = some e) :
    ids evs = ids (evs.eraseP p) + {e.eventId} := by
  have hcons : ∀ e evs, ids (e :: evs) = e.eventId ::ₘ ids evs := fun _ _ => rfl
  induction evs with
  | nil => cases h
  | cons a evs ih =>
    by_cases ha : p a = true
    · rw [List.find?_cons_of_pos ha] at h
      cases h
      rw [List.eraseP_cons_of_pos ha,hcons,add_comm,Multiset.singleton_add]
    · rw [List.find?_cons_of_neg ha] at h
      rw [List.eraseP_cons_of_neg ha,hcons,hcons,ih h,Multiset.cons_add]

theorem unsubscribeUserEvent_fine (h : Coherent s) (root : AttName) (et : EventType) :
    Fine (unsubscribeUserEvent root et s) ↔ Meets s (.unsubscribeUserEvent root et) := by
  unfold unsubscribeUserEvent Meets
  by_cases hdev : root.dev ∈ s.dps
  · simp only [forall_const,hdev,if_true]
    cases hl : s.mapEventIdUser.lookup root.full with
    | none => exact iff_of_false (fun hfine => hfine.1 _ rfl) (AList.lookup_eq_none.mp hl)
    | some evs =>
      refine iff_of_true ?_ (mem_of_lookup hl)
      simp only
      cases hfind : evs.find? (·.eventType = et) with
      | none => exact fine_threw h _
      | some e =>
        simp only [Option.map_some,Option.getD_some]
        by_cases hid : e.eventId = 0
        · rw [if_pos hid]
          exact fine_threw h _
        · rw [if_neg hid]
          have hs := h.unsubUser hl (evs.eraseP (·.eventType = et)) (ids_eraseP hfind)
          rw [Multiset.sub_singleton] at hs
          exact fine_returned hs
  · rw [if_neg hdev]
    exact iff_of_true (fine_threw h _) (fun hm => absurd hm hdev)

theorem right_iff (h : Coherent s) (c : Call) : Right s c ↔ Meets s c := by
  cases c with
  | addRootAtt c => exact addRootAtt_right h c
  | clearAttrdesc root =>
    rw [right_iff_fine (fun _ => Call.noConfusion)]
    exact iff_of_true (clearAttrdesc_fine h root) trivial
  | removeRootAtt root =>
    rw [right_iff_fine (fun _ => Call.noConfusion)]
    exact iff_of_true (removeRootAtt_fine h root) trivial
  | subscribeUserEvent root et first second =>
    rw [right_iff_fine (fun _ => Call.noConfusion)]
    exact subscribeUserEvent_fine h root et first second
  | unsubscribeUserEvent root et =>
    rw [right_iff_fine (fun _ => Call.noConfusion)]
    exact unsubscribeUserEvent_fine h root et
  | autoUnsub now attrByName =>
    rw [right_iff_fine (fun _ => Call.noConfusion)]
    exact autoUnsub_fine h

end Steps

section Runs

theorem along_right {s : Registry} (h : Coherent s) (calls : List Call) :
    Along after Right s calls ↔ Along after Meets s calls := by
  induction calls generalizing s with
  | nil => exact Iff.rfl
  | cons c calls ih =>
    rw [Along,Along,right_iff h]
    apply and_congr_right
    intro hc
    exact ih ((right_iff h c).mpr hc).fine.2

/-- A run from the start leaves the registry right at every call exactly when its calls stay away from what goes
wrong. -/
theorem registry_right_iff (calls : List Call) :
    Along after Right .empty calls ↔ Along after Meets .empty calls := along_right coherent_empty calls

/-- A forwarded attribute `copy` of a local device, with the attribute `speed` of another device as its root. -/
def forwarded (first second : Option DevErrorList) : AddRootAtt where
  root := ⟨"tango://db:10000/sys/motor/1".toList,"speed".toList,speed_noSlash⟩
  localAtt := ⟨"sys/fwd/1".toList,"copy".toList,copy_noSlash⟩
  attdesc := .errUnknown
  proxy := some 5
  first := first
  second := second
  loop := false
  dsName := "fwdserver/1".toList
  restarting := false

/-- An attribute whose two subscriptions fail is left in one of the two maps, and a double use of one whose descriptor is
cleared follows its null pointer. -/
theorem half_registered :
    let e : DevErrorList := [⟨"API_DeviceNotExported",.err,"","DeviceProxy::subscribe_event"⟩]
    let half := after .empty (.addRootAtt (forwarded (some e) (some e)))
    let cleared := [.addRootAtt (forwarded none none),.clearAttrdesc (forwarded none none).root].foldl after .empty
    ((forwarded none none).root.full ∈ half.mapAttrdesc ∧ (forwarded none none).root.full ∉ half.mapEventId) ∧
      ((Call.addRootAtt (forwarded none none)).run cleared).2 = .fault .nullPointer := by
  decide

end Runs

end CppTango.Device.RootAtt
