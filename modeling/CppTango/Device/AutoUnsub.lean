import CppTango.Device.RootAttCoherent
import Mathlib.Algebra.Order.BigOperators.Group.List
import Mathlib.Algebra.Order.Sub.Unbundled.Basic

namespace CppTango.Device.RootAtt

open CppTango.Lib Client.Connecting

section Expired
variable (now : Int) (sub : EventType → Int)

/-- The types of events that clients subscribe to with a date. -/
def dated : EventType → Bool
  | .interfaceChange | .pipe | .attrConf => false
  | .change | .alarm | .periodic | .archive | .user | .dataReady => true

/-- The last subscription of a client is too old. -/
def expired (e : UserEvent) : Bool := dated e.eventType && Event.resubscribePeriod ≤ now - sub e.eventType

/-- Behind an expired event comes one that is not, and then one that has a date. -/
def Spaced (evs : List UserEvent) : Prop :=
  ∀ i e, evs[i]? = some e → expired now sub e = true →
    (∀ b, evs[i + 1]? = some b → expired now sub b = false) ∧
    (∀ c, evs[i + 2]? = some c → dated c.eventType = true)

variable {now sub}

theorem spaced_cons {e : UserEvent} {evs : List UserEvent} : Spaced now sub (e :: evs) ↔
    (expired now sub e = true → (∀ b, evs[0]? = some b → expired now sub b = false) ∧
      (∀ c, evs[1]? = some c → dated c.eventType = true)) ∧ Spaced now sub evs := by
  constructor
  · intro h
    exact ⟨h 0 e rfl,fun i => h (i + 1)⟩
  · rintro ⟨hhead,htail⟩ i
    cases i with
    | zero =>
      intro b hb
      cases hb
      exact hhead
    | succ i => exact htail i

theorem spaced_cons_kept {e : UserEvent} {evs : List UserEvent} (h : expired now sub e = false) :
    Spaced now sub (e :: evs) ↔ Spaced now sub evs := by
  rw [spaced_cons]
  refine and_iff_right (fun he => ?_)
  rw [h] at he
  cases he

theorem deltaT_dated {e : UserEvent} (h : dated e.eventType = true) (delta : Int) :
    deltaT now sub delta e.eventType = now - sub e.eventType := by
  cases ht : e.eventType with
  | interfaceChange | pipe | attrConf =>
    rw [ht] at h
    cases h
  | change | alarm | periodic | archive | user | dataReady => rfl

theorem deltaT_dateless {e : UserEvent} (h : dated e.eventType = false) (delta : Int) :
    deltaT now sub delta e.eventType = delta := by
  cases ht : e.eventType with
  | interfaceChange | pipe | attrConf => rfl
  | change | alarm | periodic | archive | user | dataReady =>
    rw [ht] at h
    cases h

/-- The age that is compared is right, unless that of an expired event is left over. -/
theorem expired_iff {e : UserEvent} {delta : Int}
    (h : delta < Event.resubscribePeriod ∨ dated e.eventType = true) :
    expired now sub e = true ↔ Event.resubscribePeriod ≤ deltaT now sub delta e.eventType := by
  unfold expired
  by_cases hd : dated e.eventType = true
  · rw [deltaT_dated hd]
    simp [hd]
  · rw [Bool.not_eq_true] at hd
    rw [deltaT_dateless hd]
    have : delta < Event.resubscribePeriod := by
      rcases h with h | h
      · exact h
      · rw [hd] at h
        cases h
    simp [hd,this]

/-- The events that are to stay, and those that are to go. -/
def rightly (now : Int) (sub : EventType → Int) (evs : List UserEvent) : List UserEvent × List UserEvent :=
  (evs.filter (fun e => !expired now sub e),evs.filter (expired now sub))

theorem rightly_cons_expired {e : UserEvent} {evs : List UserEvent} (h : expired now sub e = true) :
    rightly now sub (e :: evs) = (rightly now sub evs).map id (e :: ·) := by
  simp [rightly,h]

theorem rightly_cons_kept {e : UserEvent} {evs : List UserEvent} (h : expired now sub e = false) :
    rightly now sub (e :: evs) = (rightly now sub evs).map (e :: ·) id := by
  simp [rightly,h]

theorem kept_of_rightly {e : UserEvent} {evs : List UserEvent} (h : e ∈ (rightly now sub evs).1) :
    expired now sub e = false := by
  simpa using (List.mem_filter.mp h).2

theorem gone_of_rightly {e : UserEvent} {evs : List UserEvent} (h : e ∈ (rightly now sub evs).2) :
    expired now sub e = true := (List.mem_filter.mp h).2

theorem head_unsubscribed {delta : Int} {e : UserEvent} (evs : List UserEvent)
    (h : Event.resubscribePeriod ≤ deltaT now sub delta e.eventType) :
    e ∈ (unsubOld now sub delta (e :: evs)).2 := by
  cases evs with
  | nil => simp [unsubOld,h]
  | cons e' evs => simp [unsubOld,h]

theorem map_cons_inj (e e' : UserEvent) (x y : List UserEvent × List UserEvent) :
    x.map (e :: ·) (e' :: ·) = y.map (e :: ·) (e' :: ·) ↔ x = y :=
  (List.cons_injective.prodMap List.cons_injective).eq_iff

/-- The loop is right just where the events are spaced; the hypothesis is that of the age left over. -/
theorem unsubOld_right_iff {delta : Int} {evs : List UserEvent}
    (h : ∀ e, evs[0]? = some e → delta < Event.resubscribePeriod ∨ dated e.eventType = true) :
    unsubOld now sub delta evs = rightly now sub evs ↔ Spaced now sub evs := by
  fun_induction unsubOld now sub delta evs with
  | case1 => exact iff_of_true rfl (fun i e he => by cases he)
  | case2 delta e _ hold =>
    have hexp : expired now sub e = true := (expired_iff (h e rfl)).mpr hold
    refine iff_of_true ?_ (spaced_cons.mpr ⟨fun _ => ⟨?_,?_⟩,?_⟩)
    · rw [rightly_cons_expired hexp]
      rfl
    · intro b hb
      cases hb
    · intro c hc
      cases hc
    · intro i e he
      cases he
  | case3 delta e _ hold e' evs ih =>
    have hexp : expired now sub e = true := (expired_iff (h e rfl)).mpr hold
    rw [rightly_cons_expired hexp,spaced_cons]
    by_cases hexp' : expired now sub e' = true
    · refine iff_of_false ?_ ?_
      · intro he
        have hin : e' ∈ (Prod.map id (e :: ·) (rightly now sub (e' :: evs))).1 := by
          rw [← he]
          exact List.mem_cons_self
        exact Bool.false_ne_true ((kept_of_rightly hin).symm.trans hexp')
      · intro hs
        exact Bool.false_ne_true (((hs.1 hexp).1 e' rfl).symm.trans hexp')
    · rw [Bool.not_eq_true] at hexp'
      have hmap : Prod.map id (e :: ·) ((rightly now sub evs).map (e' :: ·) id) =
          (rightly now sub evs).map (e' :: ·) (e :: ·) := rfl
      rw [rightly_cons_kept hexp',hmap,map_cons_inj,spaced_cons_kept hexp']
      by_cases hhead : ∀ c, evs[0]? = some c → dated c.eventType = true
      · rw [ih (fun c hc => .inr (hhead c hc))]
        refine (and_iff_right (fun _ => ⟨?_,hhead⟩)).symm
        intro b hb
        cases hb
        exact hexp'
      · refine iff_of_false ?_ (fun hs => hhead (hs.1 hexp).2)
        intro he
        cases evs with
        | nil => exact hhead (fun c hc => by cases hc)
        | cons c evs =>
          have hc : dated c.eventType = false := by
            rw [← Bool.not_eq_true]
            intro hc
            refine hhead (fun c' hc' => ?_)
            cases hc'
            exact hc
          -- the age left over is that of the event unsubscribed before
          have hage : deltaT now sub (deltaT now sub delta e.eventType) c.eventType =
              deltaT now sub delta e.eventType := deltaT_dateless hc _
          have hgone := head_unsubscribed evs (hold.trans_eq hage.symm)
          rw [he] at hgone
          have := gone_of_rightly hgone
          rw [expired,hc] at this
          cases this
  | case4 delta e evs _ hold ih =>
    have hkept : expired now sub e = false := by
      rw [← Bool.not_eq_true,expired_iff (h e rfl)]
      exact hold
    rw [rightly_cons_kept hkept,spaced_cons_kept hkept,← ih (fun c hc => .inl (Int.not_le.mp hold))]
    exact (List.cons_injective.prodMap Function.injective_id).eq_iff

end Expired

section Loop
variable {now : Int} {attrByName : Text → Text → Except DevErrorList (EventType → Int)} {s : Registry}

/-- An entry of the map whose local device, attribute and root device are known. -/
structure Known (attrByName : Text → Text → Except DevErrorList (EventType → Int)) (s : Registry) (root : Text)
    (sub : EventType → Int) (evs : List UserEvent) : Prop where
  entry : s.mapEventIdUser.lookup root = some evs
  desc : ∃ n, s.mapAttrdesc.lookup root = some n ∧ n.localAtt.dev ∈ s.localDis ∧
    attrByName n.localAtt.dev n.localAtt.att = .ok sub
  device : devOf root ∈ s.dps

/-- What one turn of the loop over the attributes leaves. -/
def unsubRoot (now : Int) (sub : EventType → Int) (evs : List UserEvent) (root : Text) (s : Registry) : Registry :=
  {s with
    mapEventIdUser := s.mapEventIdUser.insert root (unsubOld now sub 0 evs).1
    subscribed := s.subscribed - ids (unsubOld now sub 0 evs).2}

theorem Known.unsubRoot {root other : Text} {sub sub' : EventType → Int} {evs evs' : List UserEvent}
    (h : Known attrByName s other sub' evs') (hne : other ≠ root) :
    Known attrByName (unsubRoot now sub evs root s) other sub' evs' :=
  ⟨(AList.lookup_insert_ne hne).trans h.entry,h.desc,h.device⟩

theorem unsubAll_cons {root : Text} {sub : EventType → Int} {evs : List UserEvent}
    (h : Known attrByName s root sub evs) (roots : List Text) :
    unsubAll now attrByName (root :: roots) s =
      if (unsubOld now sub 0 evs).1 = [] then
        ({unsubRoot now sub evs root s with
          mapEventIdUser := (unsubRoot now sub evs root s).mapEventIdUser.erase root},.fault .badIterator)
      else unsubAll now attrByName roots (unsubRoot now sub evs root s) := by
  obtain ⟨n,hl,hlocal,hatt⟩ := h.desc
  have hdev := h.device
  rw [unsubAll]
  simp only [hl,devOf_full,attOf_full,if_pos hlocal,hatt,h.entry,Option.getD_some,hdev,not_true_eq_false,and_false,
    if_false]
  rfl

variable {sub : Text → EventType → Int} {evs : Text → List UserEvent}

/-- With something kept of every entry the loop comes to its end. -/
theorem unsubAll_returns {roots : List Text} (hknown : ∀ root ∈ roots, Known attrByName s root (sub root) (evs root))
    (hn : roots.Nodup) (hkept : ∀ root ∈ roots, (unsubOld now (sub root) 0 (evs root)).1 ≠ []) :
    (unsubAll now attrByName roots s).2 = .returned ∧
    (∀ root, (unsubAll now attrByName roots s).1.mapEventIdUser.lookup root =
      if root ∈ roots then some (unsubOld now (sub root) 0 (evs root)).1 else s.mapEventIdUser.lookup root) ∧
    (unsubAll now attrByName roots s).1.subscribed =
      s.subscribed - (roots.map (fun root => ids (unsubOld now (sub root) 0 (evs root)).2)).sum := by
  induction roots generalizing s with
  | nil => exact ⟨rfl,fun root => (if_neg List.not_mem_nil).symm,(Multiset.sub_zero _).symm⟩
  | cons root roots ih =>
    rw [List.nodup_cons] at hn
    rw [unsubAll_cons (hknown root List.mem_cons_self),if_neg (hkept root List.mem_cons_self)]
    have hrest : ∀ other ∈ roots, other ≠ root := by
      rintro other ho rfl
      exact hn.1 ho
    obtain ⟨hret,husers,hsub⟩ := ih (s := unsubRoot now (sub root) (evs root) root s)
      (fun other ho => (hknown other (List.mem_cons_of_mem _ ho)).unsubRoot (hrest other ho)) hn.2
      (fun other ho => hkept other (List.mem_cons_of_mem _ ho))
    refine ⟨hret,fun other => ?_,?_⟩
    · rw [husers]
      by_cases he : other = root
      · rw [he,if_neg hn.1,if_pos List.mem_cons_self]
        exact AList.lookup_insert _
      · have hlookup : (unsubRoot now (sub root) (evs root) root s).mapEventIdUser.lookup other =
            s.mapEventIdUser.lookup other := AList.lookup_insert_ne he
        simp only [List.mem_cons,he,false_or,hlookup]
    · rw [hsub,List.map_cons,List.sum_cons]
      exact tsub_tsub _ _ _

/-- An entry of which nothing is kept is erased under the iterator. -/
theorem unsubAll_faults {roots : List Text} (hknown : ∀ root ∈ roots, Known attrByName s root (sub root) (evs root))
    (hn : roots.Nodup) (hkept : ∃ root ∈ roots, (unsubOld now (sub root) 0 (evs root)).1 = []) :
    (unsubAll now attrByName roots s).2 = .fault .badIterator := by
  induction roots generalizing s with
  | nil =>
    obtain ⟨root,hr,_⟩ := hkept
    cases hr
  | cons root roots ih =>
    rw [List.nodup_cons] at hn
    rw [unsubAll_cons (hknown root List.mem_cons_self)]
    split
    · rfl
    · rename_i hne
      refine ih (fun other ho => (hknown other (List.mem_cons_of_mem _ ho)).unsubRoot ?_) hn.2 ?_
      · rintro rfl
        exact hn.1 ho
      · obtain ⟨other,ho,hnil⟩ := hkept
        rcases List.mem_cons.mp ho with rfl | ho
        · exact absurd hnil hne
        · exact ⟨other,ho,hnil⟩

end Loop

section Right
variable (now : Int) (dates : Text → Text → EventType → Int) (s : Registry)

/-- The dates kept by the local attribute of a root attribute. -/
def datesOf (root : Text) : EventType → Int :=
  match s.mapAttrdesc.lookup root with
  | none => fun _ => now
  | some n => dates n.localAtt.dev n.localAtt.att

def eventsOf (root : Text) : List UserEvent := (s.mapEventIdUser.lookup root).getD []

/-- The expired events are unsubscribed, each once, and the others left in order; no list is left empty and no
iterator is used that points at nothing. -/
structure Unsubscribed (r : Result) : Prop where
  returned : r.2 = .returned
  users : ∀ root, r.1.mapEventIdUser.lookup root =
    (s.mapEventIdUser.lookup root).bind fun evs =>
      if (rightly now (datesOf now dates s root) evs).1 = [] then none
      else some (rightly now (datesOf now dates s root) evs).1
  calls : ∀ root, (unsubOld now (datesOf now dates s root) 0 (eventsOf s root)).2 =
    (rightly now (datesOf now dates s root) (eventsOf s root)).2
  subscribed : s.subscribed = r.1.subscribed +
    (s.mapEventIdUser.keys.map
      (fun root => ids (rightly now (datesOf now dates s root) (eventsOf s root)).2)).sum

/-- The events of the users are subscribed, on root attributes whose devices are known. -/
structure Served (s : Registry) : Prop where
  users : ∀ root evs, s.mapEventIdUser.lookup root = some evs → devOf root ∈ s.dps ∧
    ∃ n, s.mapAttrdesc.lookup root = some n ∧ n.localAtt.dev ∈ s.localDis
  subscribed : held ids s.mapEventIdUser ≤ s.subscribed

theorem Coherent.served {s : Registry} (h : Coherent s) : Served s := by
  constructor
  · intro root evs hevs
    obtain ⟨hroot,_⟩ := h.users root evs hevs
    obtain ⟨n,hl⟩ := Option.isSome_iff_exists.mp (AList.lookup_isSome.mpr hroot)
    exact ⟨(h.devices _).mpr ⟨root,hroot,rfl⟩,n,hl,(h.locals _).mpr ⟨root,n,hl,rfl⟩⟩
  · rw [← h.recorded]
    exact Multiset.le_add_left _ _

theorem Served.known {s : Registry} (h : Served s) {root : Text} (hr : root ∈ s.mapEventIdUser) :
    Known (fun dev att => .ok (dates dev att)) s root (datesOf now dates s root) (eventsOf s root) := by
  obtain ⟨evs,hevs⟩ := Option.isSome_iff_exists.mp (AList.lookup_isSome.mpr hr)
  obtain ⟨hdev,n,hl,hlocal⟩ := h.users root evs hevs
  refine ⟨?_,⟨n,hl,hlocal,?_⟩,hdev⟩
  · rw [eventsOf,hevs]
    rfl
  · simp only [datesOf,hl]

theorem gone_le_subscribed {s : Registry} (h : Served s) :
    (s.mapEventIdUser.keys.map
      (fun root => ids (unsubOld now (datesOf now dates s root) 0 (eventsOf s root)).2)).sum ≤ s.subscribed := by
  calc (s.mapEventIdUser.keys.map
        (fun root => ids (unsubOld now (datesOf now dates s root) 0 (eventsOf s root)).2)).sum
      ≤ (s.mapEventIdUser.keys.map (fun root => ids (eventsOf s root))).sum := by
        apply List.sum_le_sum
        intro root _
        exact (Multiset.le_add_left _ _).trans_eq (unsubOld_ids 0 (eventsOf s root)).symm
    _ = held ids s.mapEventIdUser := (held_keys ids s.mapEventIdUser []).symm
    _ ≤ s.subscribed := h.subscribed

variable {s}

/-- The entries are walked in the order of the map. -/
theorem mem_roots {root : Text} : root ∈ roots s ↔ root ∈ s.mapEventIdUser :=
  (List.mem_insertionSort _).trans AList.mem_keys.symm

theorem nodup_roots : (roots s).Nodup :=
  (List.perm_insertionSort _ _).nodup_iff.mpr s.mapEventIdUser.keys_nodup

theorem autoUnsub_right_iff (h : Served s) :
    Unsubscribed now dates s (autoUnsub now (fun dev att => .ok (dates dev att)) s) ↔
      ∀ root evs, s.mapEventIdUser.lookup root = some evs →
        Spaced now (datesOf now dates s root) evs ∧ ∃ e ∈ evs, expired now (datesOf now dates s root) e = false := by
  have hknown : ∀ root ∈ roots s, Known (fun dev att => .ok (dates dev att)) s root (datesOf now dates s root)
      (eventsOf s root) := fun root hr => h.known now dates (mem_roots.mp hr)
  have hspaced : ∀ root evs,
      unsubOld now (datesOf now dates s root) 0 evs = rightly now (datesOf now dates s root) evs ↔
      Spaced now (datesOf now dates s root) evs := fun _ _ => unsubOld_right_iff (fun _ _ => .inl (by decide))
  have hevents : ∀ root evs, s.mapEventIdUser.lookup root = some evs → eventsOf s root = evs := by
    intro root evs hevs
    rw [eventsOf,hevs,Option.getD_some]
  constructor
  · intro hright root evs hevs
    have hkept : ∀ root ∈ roots s, (unsubOld now (datesOf now dates s root) 0 (eventsOf s root)).1 ≠ [] := by
      intro other ho hnil
      have := unsubAll_faults hknown nodup_roots ⟨other,ho,hnil⟩
      rw [← autoUnsub,hright.returned] at this
      cases this
    have hr : root ∈ roots s := mem_roots.mpr (mem_of_lookup hevs)
    have huser := (unsubAll_returns hknown nodup_roots hkept).2.1 root
    have hgone := hright.calls root
    have hne := hkept root hr
    rw [← autoUnsub,hright.users,hevs,if_pos hr,hevents root evs hevs,Option.bind_some] at huser
    rw [hevents root evs hevs] at hgone hne
    split at huser
    · cases huser
    · have hfst := Option.some.inj huser
      refine ⟨(hspaced root evs).mp (Prod.ext hfst.symm hgone),?_⟩
      rw [← hfst] at hne
      obtain ⟨e,he⟩ := List.exists_mem_of_ne_nil _ hne
      exact ⟨e,(List.mem_filter.mp he).1,kept_of_rightly he⟩
  · intro hall
    have hrightly : ∀ root, unsubOld now (datesOf now dates s root) 0 (eventsOf s root) =
        rightly now (datesOf now dates s root) (eventsOf s root) := by
      intro root
      cases hl : s.mapEventIdUser.lookup root with
      | none =>
        rw [eventsOf,hl]
        rfl
      | some evs =>
        rw [hevents root evs hl]
        exact (hspaced root evs).mpr (hall root evs hl).1
    have hne : ∀ root evs, s.mapEventIdUser.lookup root = some evs →
        (rightly now (datesOf now dates s root) evs).1 ≠ [] := by
      intro root evs hl
      obtain ⟨e,he,hexp⟩ := (hall root evs hl).2
      exact List.ne_nil_of_mem (List.mem_filter.mpr ⟨he,by rw [hexp]; rfl⟩)
    have hkept : ∀ root ∈ roots s, (unsubOld now (datesOf now dates s root) 0 (eventsOf s root)).1 ≠ [] := by
      intro root hr
      obtain ⟨evs,hl⟩ := Option.isSome_iff_exists.mp (AList.lookup_isSome.mpr (mem_roots.mp hr))
      rw [hrightly,hevents root evs hl]
      exact hne root evs hl
    obtain ⟨hret,husers,hsub⟩ := unsubAll_returns hknown nodup_roots hkept
    refine ⟨hret,fun root => ?_,fun root => congrArg Prod.snd (hrightly root),?_⟩
    · rw [autoUnsub,husers]
      cases hl : s.mapEventIdUser.lookup root with
      | none =>
        rw [if_neg (fun hr => AList.lookup_eq_none.mp hl (mem_roots.mp hr))]
        rfl
      | some evs =>
        rw [if_pos (mem_roots.mpr (mem_of_lookup hl)),Option.bind_some,if_neg (hne root evs hl),hrightly,
          hevents root evs hl]
    · have hsum :
          ((roots s).map (fun root => ids (unsubOld now (datesOf now dates s root) 0 (eventsOf s root)).2)).sum =
          (s.mapEventIdUser.keys.map
            (fun root => ids (unsubOld now (datesOf now dates s root) 0 (eventsOf s root)).2)).sum :=
        List.Perm.sum_eq ((List.perm_insertionSort _ _).map _)
      simp only [← hrightly]
      rw [autoUnsub,hsub,hsum]
      exact (tsub_add_cancel_of_le (gone_le_subscribed now dates h)).symm

/-- A forwarded attribute whose root attribute has the change and the periodic event subscribed. -/
def twoUsers : Registry :=
  let root : AttName := ⟨"tango://db:10000/sys/motor/1".toList,"speed".toList,speed_noSlash⟩
  let localAtt : AttName := ⟨"sys/fwd/1".toList,"copy".toList,copy_noSlash⟩
  let s := recordEvent root.full (addAtt root.full localAtt .noError {Registry.empty with dps := insert root.dev ∅})
  recordUser root.full .periodic (recordUser root.full .change s)

theorem coherent_twoUsers : Coherent twoUsers := by
  have hempty : (⟨"tango://db:10000/sys/motor/1".toList,"speed".toList,by decide⟩ : AttName).full ∉
      Registry.empty.mapAttrdesc := AList.notMem_empty _
  have hone := coherent_empty.register hempty ⟨"sys/fwd/1".toList,"copy".toList,by decide⟩ .noError
  exact (hone.recordUser (by decide) .change).recordUser (by decide) .periodic

theorem autoUnsub_right_iff_twoUsers :
    Unsubscribed 1000 (fun _ _ _ => 0) twoUsers (autoUnsub 1000 (fun _ _ => .ok (fun _ => 0)) twoUsers) ↔
      ∀ root evs, twoUsers.mapEventIdUser.lookup root = some evs →
        Spaced 1000 (datesOf 1000 (fun _ _ _ => 0) twoUsers root) evs ∧
          ∃ e ∈ evs, expired 1000 (datesOf 1000 (fun _ _ _ => 0) twoUsers root) e = false :=
  autoUnsub_right_iff 1000 (fun _ _ _ => 0) coherent_twoUsers.served

/-- Of two expired events the second stays. -/
theorem second_stays : Served twoUsers ∧
    ¬Unsubscribed 1000 (fun _ _ _ => 0) twoUsers (autoUnsub 1000 (fun _ _ => .ok (fun _ => 0)) twoUsers) := by
  refine ⟨coherent_twoUsers.served,fun h => ?_⟩
  have huser := congrArg Option.isSome (h.users "tango://db:10000/sys/motor/1/speed".toList)
  exact absurd huser (by decide)

end Right

end CppTango.Device.RootAtt
