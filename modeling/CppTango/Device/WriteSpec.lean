import CppTango.Device.WritePasses

namespace CppTango.Device.Write

open CppTango.Lib

variable {α : Type} (dev : DeviceImpl α)

section Fates
variable (values : List (AttributeValue α))

/-- What `write_attr_hardware` answers when the elements `l` have passed their check: it is
called for those whose write method returns. -/
def answer (l : List (AttIdx α)) : HardwareResult :=
  if 4 ≤ dev.idlVersion ∧ l ≠ [] then
    dev.writeAttrHardware ((l.filter (fun a => dev.writeOne a = none)).map AttIdx.idxInMultiAttr)
  else .done

/-- The elements without an error up to the database. -/
def stored (l : List (AttIdx α)) : List (AttIdx α) :=
  (l.filter (fun a => dev.writeOne a = none)).filter (fun a => (answer dev l).errors dev a = none)

/-- The first of the errors raised for an element after its check. -/
def laterErrors (l : List (AttIdx α)) (a : AttIdx α) : Option DevErrorList :=
  (dev.writeOne a).or (((answer dev l).errors dev a).or (storeErrors dev (stored dev l) a))

def passed : List (AttIdx α) := (selected dev values).filter (fun a => dev.check a = .passed)

/-- The errors an element has of its own. -/
def verdict (a : AttIdx α) : Option DevErrorList :=
  match dev.check a with
  | .failed e => some e
  | .outOfRange => none
  | .passed => laterErrors dev (passed dev values) a

def verdictAt (i : Nat) (v : AttributeValue α) : Option DevErrorList :=
  match select dev v with
  | .error e => some e
  | .ok ind => verdict dev values ⟨i,ind,v⟩

/-- One element as the caller may expect it. -/
structure Treated (out : Work α) (i : Nat) (v : AttributeValue α) : Prop where
  /-- reported once with its own errors, or not at all -/
  errors : out.reported i = (verdictAt dev values i v).toList
  /-- written at most once, and not before it was checked -/
  ordered : out.logged i <+: [.checked i,.written i]
  /-- checked without error, written and stored when it is not reported -/
  done : verdictAt dev values i v = none → ∃ ind, select dev v = .ok ind ∧
    dev.check ⟨i,ind,v⟩ = .passed ∧ out.logged i = [.checked i,.written i] ∧
    (dev.write ind = .done none → (out.wattrs ind).lastWrittenValue = v.seq ∧
      (out.wattrs ind).writeValue = if dev.isScalar ⟨i,ind,v⟩ then v.seq.take 1 else v.seq)

/-- The call returns and treats every element on its own. -/
def TreatsEachOnItsOwn (wattrs : Nat → WAttribute α) : Prop :=
  ∃ out, writeAttributes34 dev wattrs values = some out ∧
    ∀ i v, values[i]? = some v → Treated dev values out i v

/-- When it does. -/
structure Separate : Prop where
  inRange : ∀ a ∈ selected dev values, dev.check a ≠ .outOfRange
  first : ∀ a rest e, selected dev values = a :: rest → dev.check a = .failed e →
    ∀ b ∈ rest, dev.check b = .passed ∧ dev.isAllowed b.idxInMultiAttr = false
  named : ∀ es, answer dev (passed dev values) = .multiDevFailed es →
    NamesEach dev es ((passed dev values).filter (fun a => dev.writeOne a = none))

end Fates

section After
variable {dev} {l l' : List (AttIdx α)} {w w' : Work α}

theorem checkLoop_length {front rest : List (AttIdx α)} (h : checkLoop dev front rest w = some (l,w')) :
    w'.errs.length + l.length = w.errs.length + front.length + rest.length := by
  induction rest generalizing front w with
  | nil =>
    cases h
    rfl
  | cons a rest ih =>
    rw [checkLoop] at h
    cases hc : dev.check a with
    | outOfRange =>
      rw [hc] at h
      cases h
    | passed =>
      rw [hc] at h
      have := ih h
      simp only [Work.note,Work.upd,List.length_append,List.length_cons,List.length_nil] at this ⊢
      omega
    | failed e =>
      simp only [hc] at h
      split at h
      next hf =>
        cases h
        simp only [hf,Work.fail,List.length_append,List.length_cons,List.length_nil]
        omega
      next =>
        have := ih h
        simp only [Work.fail,List.length_append,List.length_cons,List.length_nil] at this ⊢
        omega

variable (dev) in
/-- The work before the first check. -/
def begun (wattrs : Nat → WAttribute α) (values : List (AttributeValue α)) : Work α :=
  ⟨wattrs,(selectAll dev 0 values).2,[]⟩

variable (dev) in
/-- What follows the loop of the checks. -/
def afterChecks (l : List (AttIdx α)) (w : Work α) : Option (List (AttIdx α) × Work α) :=
  if l ≠ [] then hardware dev (writeLoop dev l w).1 (writeLoop dev l w).2 else some (l,w)

variable {wattrs : Nat → WAttribute α} {values : List (AttributeValue α)}

theorem writeAttributes34_eq (h : checkLoop dev [] (selected dev values) (begun dev wattrs values) = some (l,w)) :
    writeAttributes34 dev wattrs values =
      (afterChecks dev l w).map (fun r => memorize dev r.1 (copyLoop r.1 r.2)) := by
  have hlen : w.errs.length ≠ values.length ↔ l ≠ [] := by
    have h1 := checkLoop_length h
    have h2 := selectAll_length dev 0 values
    have h3 : l ≠ [] ↔ l.length ≠ 0 := by simp
    rw [h3]
    rw [selectAll_selected] at h2
    unfold begun at h1
    simp only [List.length_nil] at h1
    omega
  unfold begun at h
  unfold writeAttributes34 afterChecks
  simp only [selectAll_selected,h,hlen]

theorem hardware_answer {r : List (AttIdx α) × Work α} (hl : Apart l) (hn : (l.map dev.key).Nodup)
    (h : afterChecks dev l w = some r) :
    Pass ((answer dev l).errors dev) (fun _ x => x) (fun _ => []) (writeLoop dev l w).1
      (writeLoop dev l w).2 r.1 r.2 := by
  unfold afterChecks at h
  split at h
  next hne =>
    unfold answer
    split
    next hv =>
      have h2 : (writeLoop dev l w).1 = l.filter (fun a => dev.writeOne a = none) := by
        rw [writeLoop_eq]
      rw [← h2]
      refine hardware_pass ?_ ?_ hv.1 h
      · rw [h2]
        exact hl.filter _
      · rw [h2]
        exact hn.sublist (List.filter_sublist.map _)
    next hv =>
      rw [hardware,if_neg (fun h4 => hv ⟨h4,hne⟩)] at h
      cases h
      exact Pass.idle
  next hne =>
    have hnil : l = [] := not_not.mp hne
    subst l
    cases h
    rw [answer,if_neg (fun h4 => h4.2 rfl)]
    exact Pass.idle

/-- From the checks on the run is one pass, whenever it returns. -/
theorem afterChecks_pass {out : Work α} (hl : Apart l) (hn : (l.map dev.key).Nodup)
    (h : (afterChecks dev l w).map (fun r => memorize dev r.1 (copyLoop r.1 r.2)) = some out) :
    ∃ l', Pass (laterErrors dev l) (fun a x => copyData a (written dev a { x with userSetWriteValue := false }))
      (writeEvents dev) l w l' out := by
  obtain ⟨r,hr,rfl⟩ := Option.map_eq_some_iff.mp h
  have hw := writeLoop_pass dev hl w
  have ha := hardware_answer hl hn hr
  have h2 : Apart (writeLoop dev l w).1 := by
    rw [hw.left]
    exact hl.filter _
  have h3 : Apart r.1 := by
    rw [ha.left]
    exact h2.filter _
  have hs : r.1 = stored dev l := by
    rw [ha.left,hw.left]
    rfl
  have hp := hw.trans hl (ha.trans h2 ((copyLoop_pass h3 r.2).trans h3 (memorize_pass dev h3 _)))
  simp only [ite_self,List.append_nil,Option.none_or] at hp
  rw [hs] at hp ⊢
  exact ⟨_,hp⟩

theorem afterChecks_returns (hn : (l.map dev.key).Nodup) (w : Work α) :
    (∃ r, afterChecks dev l w = some r) ↔ ∀ es, answer dev l = .multiDevFailed es →
      NamesEach dev es (l.filter (fun a => dev.writeOne a = none)) := by
  have h2 : (writeLoop dev l w).1 = l.filter (fun a => dev.writeOne a = none) := by
    rw [writeLoop_eq]
  have hn2 : ((l.filter (fun a => dev.writeOne a = none)).map dev.key).Nodup :=
    hn.sublist (List.filter_sublist.map _)
  unfold afterChecks answer hardware
  by_cases hl : l = []
  · simp [hl]
  · by_cases hv : 4 ≤ dev.idlVersion
    · simp only [ne_eq,hl,not_false_eq_true,if_true,hv,and_self,h2]
      cases dev.writeAttrHardware ((l.filter (fun a => dev.writeOne a = none)).map AttIdx.idxInMultiAttr) with
      | done => simp
      | devFailed e => simp
      | multiDevFailed es =>
        simp only [HardwareResult.multiDevFailed.injEq,forall_eq']
        exact multiLoop_returns hn2 _
    · simp [hl,hv]

end After

section Checks
variable {dev} {wattrs : Nat → WAttribute α} {values : List (AttributeValue α)} {i : Nat}
  {v : AttributeValue α}

theorem begun_reported (hv : values[i]? = some v) : (begun dev wattrs values).reported i =
    match select dev v with
    | .error e => [e]
    | .ok _ => [] := by
  have hplace : ∀ p : AttributeValue α × Nat, ∀ e ∈ (rejectedAt dev p).toList, e.indexInCall = p.2 := by
    intro p e he
    unfold rejectedAt at he
    cases hs : select dev p.1 <;> simp_all
  have hn : ((values.zipIdx 0).map Prod.snd).Nodup := by
    rw [List.zipIdx_map_snd]
    exact List.nodup_range'
  have hm : (v,i) ∈ values.zipIdx 0 := List.mem_zipIdx_iff_getElem?.mpr hv
  have hi : ((values.zipIdx 0).filterMap (rejectedAt dev)).filter (fun e => e.indexInCall = i) =
      (rejectedAt dev (v,i)).toList := by
    rw [List.filterMap_eq_flatMap_toList]
    exact filter_flatMap_of_mem hplace hn hm
  rw [Work.reported,begun,selectAll_eq,hi,rejectedAt]
  cases select dev v <;> rfl

theorem begun_reported_selected {a : AttIdx α} (ha : a ∈ selected dev values) :
    (begun dev wattrs values).reported a.idxInNames = [] := by
  obtain ⟨hv,hs⟩ := mem_selected.mp ha
  rw [begun_reported hv,hs]

variable (wattrs) in
/-- The loop of the checks is a pass when the break leaves nothing out that matters. -/
theorem checks_pass (hd : (values.map (fun v => lowerName v.name)).Nodup)
    (hr : ∀ a ∈ selected dev values, dev.check a ≠ .outOfRange)
    (hf : ∀ a rest e, selected dev values = a :: rest → dev.check a = .failed e →
      ∀ b ∈ rest, dev.check b = .passed ∧ dev.isAllowed b.idxInMultiAttr = false) :
    ∃ w u ev, checkLoop dev [] (selected dev values) (begun dev wattrs values) =
        some (passed dev values,w) ∧
      Pass (checkErrors dev) u ev (selected dev values) (begun dev wattrs values) (passed dev values) w ∧
      ∀ a ∈ selected dev values, (u a = checkedValue dev a ∧ ev a = checkEvents dev a) ∨
        (ev a = [] ∧ dev.isAllowed a.idxInMultiAttr = false) := by
  have hl : Apart (selected dev values) :=
    ⟨selected_idxInNames_nodup dev values,selected_idxInMultiAttr_nodup dev hd⟩
  have hpassed : passed dev values =
      (selected dev values).filter (fun a => checkErrors dev a = none) := by
    apply List.filter_congr
    intro a ha
    unfold checkErrors
    cases hc : dev.check a with
    | outOfRange => exact absurd hc (hr a ha)
    | passed => rfl
    | failed e => rfl
  by_cases hp : ∀ a r, selected dev values = a :: r → dev.check a = .passed
  · have heq := checkLoop_eq [] (selected dev values) (begun dev wattrs values) hr (.inr hp)
    rw [List.nil_append,← hpassed] at heq
    refine ⟨_,checkedValue dev,checkEvents dev,heq,?_,fun a _ => .inl ⟨rfl,rfl⟩⟩
    refine Pass.of_loop _ hl hpassed rfl rfl ?_ rfl (fun _ _ => rfl)
    intro a e he
    unfold checkEvents at he
    split at he
    · rw [List.mem_singleton.mp he]
      rfl
    · cases he
  · simp only [not_forall] at hp
    obtain ⟨a,rest,hs,hnp⟩ := hp
    cases hc : dev.check a with
    | outOfRange => exact absurd hc (hr a (hs ▸ List.mem_cons_self))
    | passed => exact absurd hc hnp
    | failed e =>
      have hrest := hf a rest e hs hc
      have hca : checkErrors dev a = some e := by rw [checkErrors,hc]
      have hcb : ∀ b ∈ rest, checkErrors dev b = none := by
        intro b hb
        rw [checkErrors,(hrest b hb).1]
      have hpr : passed dev values = rest := by
        rw [hpassed,hs,List.filter_cons_of_neg (by simp [hca])]
        exact List.filter_eq_self.mpr (fun b hb => by simpa using hcb b hb)
      refine ⟨(begun dev wattrs values).fail a.value.name a.idxInNames e,fun _ x => x,fun _ => [],?_,?_,?_⟩
      · rw [hpr,hs,checkLoop,hc]
        rfl
      · refine Pass.of_loop (fun b => b.value.name) hl hpassed ?_ ?_ (fun b x hx => (by cases hx))
          updSlots_id.symm (fun _ _ => rfl)
        · have hnil : rest.filterMap (named (fun b => b.value.name) (checkErrors dev)) = [] := by
            apply List.filterMap_eq_nil_iff.mpr
            intro b hb
            rw [named,hcb b hb]
            rfl
          have hone : named (fun b => b.value.name) (checkErrors dev) a =
              some ⟨a.value.name,a.idxInNames,e⟩ := by
            rw [named,hca]
            rfl
          rw [hs,List.filterMap_cons_some hone,hnil]
          rfl
        · simp [Work.fail]
      · intro b hb
        rw [hs,List.mem_cons] at hb
        rcases hb with rfl | hb
        · refine .inl ⟨?_,?_⟩
          · funext x
            rw [checkedValue,hc]
          · rw [checkEvents,hc]
        · exact .inr ⟨rfl,(hrest b hb).2⟩

theorem writeOne_of_not_allowed {a : AttIdx α} (h : dev.isAllowed a.idxInMultiAttr = false) :
    dev.writeOne a = some (notAllowed dev a) := by
  rw [DeviceImpl.writeOne,h]
  rfl

theorem allowed_of_writeOne {a : AttIdx α} (h : dev.writeOne a = none) :
    dev.isAllowed a.idxInMultiAttr = true := by
  cases ha : dev.isAllowed a.idxInMultiAttr with
  | true => rfl
  | false =>
    rw [writeOne_of_not_allowed ha] at h
    cases h

/-- The errors of the checks are none of those for an attribute that may not be written. -/
theorem check_errors_ne {a b : AttIdx α} {e : DevErrorList} (h : dev.check a = .failed e) :
    e ≠ notAllowed dev b := by
  unfold DeviceImpl.check at h
  split at h
  · unfold checkWrittenValue at h
    split at h
    · cases h
      simp [thrown,notAllowed]
    · split at h
      · cases h
        simp [thrown,notAllowed]
      · split at h
        · cases h
          simp [thrown,notAllowed]
        · split at h <;> cases h
  · cases h

end Checks

section Separation
variable {dev} {wattrs : Nat → WAttribute α} {values : List (AttributeValue α)}

theorem verdictAt_selected {a : AttIdx α} (ha : a ∈ selected dev values) :
    verdictAt dev values a.idxInNames a.value = verdict dev values a := by
  rw [verdictAt,(mem_selected.mp ha).2]

theorem verdict_eq {a : AttIdx α} (h : dev.check a ≠ .outOfRange) :
    verdict dev values a = (checkErrors dev a).or (laterErrors dev (passed dev values) a) := by
  unfold verdict checkErrors
  cases hc : dev.check a with
  | outOfRange => exact absurd hc h
  | passed => rfl
  | failed e => rfl

theorem later_none {a : AttIdx α} {l : List (AttIdx α)} (h : laterErrors dev l a = none) :
    dev.writeOne a = none := (Option.or_eq_none_iff.mp h).1

variable (dev) in
theorem apart_selected (hd : (values.map (fun v => lowerName v.name)).Nodup) :
    Apart (selected dev values) :=
  ⟨selected_idxInNames_nodup dev values,selected_idxInMultiAttr_nodup dev hd⟩

variable (dev) in
theorem passed_names_nodup (hd : (values.map (fun v => lowerName v.name)).Nodup) :
    ((passed dev values).map dev.key).Nodup :=
  (selected_names_nodup dev hd).sublist (List.filter_sublist.map _)

/-- The value of an attribute that went through all of it and was not set by its method. -/
theorem kept_value {a : AttIdx α} (hc : dev.check a = .passed) (hw : dev.write a.idxInMultiAttr = .done none)
    (x : WAttribute α) :
    let y := copyData a (written dev a { checkedValue dev a x with userSetWriteValue := false })
    y.lastWrittenValue = a.value.seq ∧
      y.writeValue = if dev.isScalar a then a.value.seq.take 1 else a.value.seq := by
  simp only [checkedValue,hc,written,hw,copyData]
  cases dev.isScalar a with
  | true => exact ⟨rfl,rfl⟩
  | false => exact ⟨rfl,rfl⟩

/-- A selected element, from the run as one pass over those selected. -/
theorem treated_of_pass {a : AttIdx α} {out : Work α} {l' : List (AttIdx α)}
    {u : AttIdx α → WAttribute α → WAttribute α} {ev : AttIdx α → List Event}
    (ha : a ∈ selected dev values) (hr : dev.check a ≠ .outOfRange)
    (ht : Pass (fun a => (checkErrors dev a).or (laterErrors dev (passed dev values) a))
      (fun a x => copyData a (written dev a { u a x with userSetWriteValue := false }))
      (fun a => ev a ++ if checkErrors dev a = none then writeEvents dev a else [])
      (selected dev values) (begun dev wattrs values) l' out)
    (hue : (u a = checkedValue dev a ∧ ev a = checkEvents dev a) ∨
      (ev a = [] ∧ dev.isAllowed a.idxInMultiAttr = false)) :
    Treated dev values out a.idxInNames a.value := by
  have hlog := ht.events a ha
  rw [show (begun dev wattrs values).logged a.idxInNames = [] from rfl,List.nil_append] at hlog
  refine ⟨?_,?_,?_⟩
  · rw [ht.errors a ha,begun_reported_selected ha,verdictAt_selected ha,verdict_eq hr]
    rfl
  · rw [hlog]
    cases hc : dev.check a with
    | outOfRange => exact absurd hc hr
    | passed =>
      have hn : checkErrors dev a = none := by rw [checkErrors,hc]
      rw [if_pos hn]
      rcases hue with ⟨-,he⟩ | ⟨he,hal⟩
      · rw [he,checkEvents,hc,writeEvents]
        cases dev.isAllowed a.idxInMultiAttr with
        | true => exact List.prefix_rfl
        | false => exact ⟨[.written a.idxInNames],rfl⟩
      · rw [he,writeEvents,hal]
        exact List.nil_prefix
    | failed e =>
      have hn : checkErrors dev a = some e := by rw [checkErrors,hc]
      have he : ev a = [] := by
        rcases hue with ⟨-,he⟩ | ⟨he,-⟩
        · rw [he,checkEvents,hc]
        · exact he
      rw [he,hn]
      exact List.nil_prefix
  · intro hv
    rw [verdictAt_selected ha,verdict_eq hr] at hv
    obtain ⟨hn,hlater⟩ := Option.or_eq_none_iff.mp hv
    have hc : dev.check a = .passed := by
      cases hc : dev.check a with
      | outOfRange => exact absurd hc hr
      | passed => rfl
      | failed e =>
        rw [checkErrors,hc] at hn
        cases hn
    have hal := allowed_of_writeOne (later_none hlater)
    obtain ⟨hu,he⟩ : u a = checkedValue dev a ∧ ev a = checkEvents dev a := by
      rcases hue with h | ⟨-,h⟩
      · exact h
      · rw [hal] at h
        cases h
    refine ⟨a.idxInMultiAttr,(mem_selected.mp ha).2,hc,?_,?_⟩
    · rw [hlog,he,checkEvents,hc,if_pos hn,writeEvents,hal]
      rfl
    · intro hw
      have ha' : a ∈ l' := by
        rw [ht.left,List.mem_filter]
        exact ⟨ha,by simpa using hv⟩
      rw [ht.values a ha',hu]
      exact kept_value hc hw _

variable (wattrs) in
/-- The whole call as one pass over the selected elements. -/
theorem pass_of_separate (hd : (values.map (fun v => lowerName v.name)).Nodup)
    (hs : Separate dev values) : ∃ (out : Work α) (l' : List (AttIdx α))
      (u : AttIdx α → WAttribute α → WAttribute α) (ev : AttIdx α → List Event),
      writeAttributes34 dev wattrs values = some out ∧
      Pass (fun a => (checkErrors dev a).or (laterErrors dev (passed dev values) a))
        (fun a x => copyData a (written dev a { u a x with userSetWriteValue := false }))
        (fun a => ev a ++ if checkErrors dev a = none then writeEvents dev a else [])
        (selected dev values) (begun dev wattrs values) l' out ∧
      ∀ a ∈ selected dev values, (u a = checkedValue dev a ∧ ev a = checkEvents dev a) ∨
        (ev a = [] ∧ dev.isAllowed a.idxInMultiAttr = false) := by
  obtain ⟨w,u,ev,hc,hp,hue⟩ := checks_pass wattrs hd hs.inRange hs.first
  have hl := apart_selected dev hd
  have hn := passed_names_nodup dev hd
  obtain ⟨r,hr⟩ := (afterChecks_returns hn w).mpr hs.named
  have hout := writeAttributes34_eq hc
  rw [hr,Option.map_some] at hout
  obtain ⟨l',hq⟩ := afterChecks_pass (hl.filter _) hn (congrArg (Option.map _) hr)
  have ht := hp.trans hl hq
  exact ⟨_,l',u,ev,hout,ht,hue⟩

theorem treated_of_separate (hd : (values.map (fun v => lowerName v.name)).Nodup)
    (hs : Separate dev values) : TreatsEachOnItsOwn dev values wattrs := by
  obtain ⟨out,l',u,ev,hout,ht,hue⟩ := pass_of_separate wattrs hd hs
  refine ⟨out,hout,fun i v hv => ?_⟩
  cases hsel : select dev v with
  | error e =>
    have hi : i ∉ (selected dev values).map AttIdx.idxInNames := by
      intro hm
      obtain ⟨a,ha,rfl⟩ := List.mem_map.mp hm
      obtain ⟨hva,hsa⟩ := mem_selected.mp ha
      rw [hv,Option.some.injEq] at hva
      rw [hva,hsa] at hsel
      cases hsel
    have hve : verdictAt dev values i v = some e := by rw [verdictAt,hsel]
    refine ⟨?_,?_,?_⟩
    · rw [(ht.others i hi).1,begun_reported hv,hsel,hve]
      rfl
    · rw [(ht.others i hi).2]
      exact List.nil_prefix
    · intro h
      rw [hve] at h
      cases h
  | ok ind =>
    have ha : (⟨i,ind,v⟩ : AttIdx α) ∈ selected dev values := mem_selected.mpr ⟨hv,hsel⟩
    exact treated_of_pass ha (hs.inRange _ ha) ht (hue _ ha)

/-- A first element that fails ends the loop of the checks, and the others go on unchecked. -/
theorem first_of_treated (hd : (values.map (fun v => lowerName v.name)).Nodup) {out : Work α}
    (hout : writeAttributes34 dev wattrs values = some out)
    (ht : ∀ a ∈ selected dev values, Treated dev values out a.idxInNames a.value)
    {a : AttIdx α} {rest : List (AttIdx α)} {e : DevErrorList} (hs : selected dev values = a :: rest)
    (hc : dev.check a = .failed e) {b : AttIdx α} (hb : b ∈ rest) (hr : dev.check b ≠ .outOfRange) :
    dev.check b = .passed ∧ dev.isAllowed b.idxInMultiAttr = false := by
  have hl := apart_selected dev hd
  have hbs : b ∈ selected dev values := hs ▸ List.mem_cons_of_mem _ hb
  have hloop : checkLoop dev [] (selected dev values) (begun dev wattrs values) =
      some (rest,(begun dev wattrs values).fail a.value.name a.idxInNames e) := by
    rw [hs,checkLoop,hc]
    rfl
  have hrest : Apart rest := by
    rw [hs] at hl
    exact ⟨(List.nodup_cons.mp hl.places).2,(List.nodup_cons.mp hl.attrs).2⟩
  have hn : (rest.map dev.key).Nodup := by
    have h := selected_names_nodup dev hd
    rw [hs] at h
    exact (List.nodup_cons.mp h).2
  rw [writeAttributes34_eq hloop] at hout
  obtain ⟨l',hp⟩ := afterChecks_pass hrest hn hout
  have hne : a.idxInNames ≠ b.idxInNames := by
    intro he
    rw [hs] at hl
    exact (List.nodup_cons.mp hl.places).1 (he ▸ List.mem_map_of_mem hb)
  have hal : dev.isAllowed b.idxInMultiAttr = false := by
    have h := (ht b hbs).ordered
    rw [hp.events b hb,writeEvents] at h
    cases hal : dev.isAllowed b.idxInMultiAttr with
    | false => rfl
    | true =>
      rw [hal] at h
      obtain ⟨t,ht⟩ := h
      cases ht
  refine ⟨?_,hal⟩
  have herr := (ht b hbs).errors
  rw [hp.errors b hb,reported_fail_of_ne hne,begun_reported_selected hbs,laterErrors,
    writeOne_of_not_allowed hal,verdictAt_selected hbs] at herr
  cases hcb : dev.check b with
  | outOfRange => exact absurd hcb hr
  | passed => rfl
  | failed e' =>
    rw [verdict,hcb] at herr
    cases herr
    exact absurd rfl (check_errors_ne hcb)

theorem separate_of_treated (hd : (values.map (fun v => lowerName v.name)).Nodup)
    (h : TreatsEachOnItsOwn dev values wattrs) : Separate dev values := by
  obtain ⟨out,hout,ht⟩ := h
  have hts : ∀ a ∈ selected dev values, Treated dev values out a.idxInNames a.value :=
    fun a ha => ht _ _ (mem_selected.mp ha).1
  have hr : ∀ a ∈ selected dev values, dev.check a ≠ .outOfRange := by
    intro a ha hc
    have hv : verdictAt dev values a.idxInNames a.value = none := by
      rw [verdictAt_selected ha,verdict,hc]
    obtain ⟨ind,hs,hp,-⟩ := (hts a ha).done hv
    rw [(mem_selected.mp ha).2] at hs
    cases hs
    rw [hc] at hp
    cases hp
  have hf : ∀ a rest e, selected dev values = a :: rest → dev.check a = .failed e →
      ∀ b ∈ rest, dev.check b = .passed ∧ dev.isAllowed b.idxInMultiAttr = false :=
    fun a rest e hs hc b hb =>
      first_of_treated hd hout hts hs hc hb (hr b (hs ▸ List.mem_cons_of_mem _ hb))
  obtain ⟨w,u,ev,hc,-,-⟩ := checks_pass wattrs hd hr hf
  rw [writeAttributes34_eq hc] at hout
  obtain ⟨r,hr',-⟩ := Option.map_eq_some_iff.mp hout
  exact ⟨hr,hf,(afterChecks_returns (passed_names_nodup dev hd) w).mp ⟨r,hr'⟩⟩

end Separation

section Levels

/-- Three scalar attributes of which none may be set above 10. -/
def level (name : String) : AttrConf Int where
  name := name
  writable := .readWrite
  dataFormat := .scalar
  maxDimX := 1
  maxDimY := 0
  startupException := none
  memorized := false
  incompatible := fun _ => none
  outsideLimit := fun seq => if seq.any (fun x => 10 < x) then some "Set value is outside limits" else none

def levels : DeviceImpl Int where
  attrs := [level "low",level "mid",level "high"]
  idlVersion := 4
  stateName := "ON"
  isAllowed := fun _ => true
  write := fun _ => .done none
  writeAttrHardware := fun inds => if 2 ∈ inds then .multiDevFailed [("HIGH",thrown "Stuck" "" "")] else .done
  useDb := false
  writeAttributesInDb := fun _ => none

def unset : WAttribute Int := ⟨[],[],[],false⟩

def tooHigh : List (AttributeValue Int) := [⟨"low",1,0,[50]⟩,⟨"mid",1,0,[70]⟩]

end Levels

end CppTango.Device.Write
