import CppTango.Device.ReadCache
import CppTango.Lib.Loops

namespace CppTango.Device.Read

open CppTango.Lib

variable {α : Type} (dev : DeviceImpl α) (idl : Nat)

/-- The errors that stand for an attribute after the two loops, and what it holds then. -/
def readAlone (att : Attribute α) (inRead inWrite : Bool) (r : Reading α) :
    Option DevErrorList × Reading α :=
  let p := if inRead then readAtt att r else (none,r)
  let q := if inWrite then setRvalueAtt att p.2 else (none,p.2)
  (q.1.or p.1,q.2)

/-- A `DevFailed` without an error in it counts for none. -/
def attAnswer (name : String) (att : Attribute α) (p : Option DevErrorList × Reading α) :
    AttributeValue α :=
  if p.1.getD [] = [] then attToReply dev idl name att p.2 .blank
  else errorFrom (p.1.getD []) name .blank

def computedAnswer {β : Type} (res : Except DevErrorList β) (name : String)
    (f : β → AttributeValue α → AttributeValue α) : AttributeValue α :=
  match res with
  | .ok x => f x .blank
  | .error e => errorFrom e name .blank

/-- What the device has for one name. -/
def deviceAnswer (held : Nat → Reading α) (name : String) : AttributeValue α :=
  match wanted dev name with
  | .error e => errorFrom e name .blank
  | .ok .state => computedAnswer dev.devState name state2attr
  | .ok .status => computedAnswer dev.devStatus name (fun s => status2attr (some s))
  | .ok (.att ind inRead inWrite) =>
    match dev.attrs[ind]? with
    | none => .blank
    | some att => attAnswer dev idl name att (readAlone att inRead inWrite (held ind))

section Wanted
variable {dev} {names : List String} {n m : String × Nat}

theorem wantedAtt_shape (ind : Nat) (att : Attribute α) : ∃ b c, wantedAtt ind att = .att ind b c := by
  unfold wantedAtt
  split
  · exact ⟨_,_,rfl⟩
  · exact ⟨_,_,rfl⟩
  · split
    · exact ⟨_,_,rfl⟩
    · exact ⟨_,_,rfl⟩
  · exact ⟨_,_,rfl⟩

variable (dev) in
/-- Everything the search for a name can end with. -/
theorem wanted_cases (name : String) :
    (lowerName name = "state".toList ∧ wanted dev name = .ok .state) ∨
    (lowerName name = "status".toList ∧ wanted dev name = .ok .status) ∨
    (∃ e, e ≠ [] ∧ wanted dev name = .error e) ∨
    (∃ ind b c att, getAttrIndByName dev.names name = .ok ind ∧ dev.attrs[ind]? = some att ∧
      wanted dev name = .ok (.att ind b c)) := by
  unfold wanted
  split
  next h => exact .inl ⟨h,rfl⟩
  next =>
    split
    next h => exact .inr (.inl ⟨h,rfl⟩)
    next =>
      refine .inr (.inr ?_)
      split
      next e h => exact .inl ⟨e,lookup_error dev h,rfl⟩
      next ind h =>
        split
        next => exact .inl ⟨_,List.cons_ne_nil _ _,rfl⟩
        next att ha =>
          split
          next => exact .inl ⟨_,List.cons_ne_nil _ _,rfl⟩
          next =>
            obtain ⟨b,c,hs⟩ := wantedAtt_shape ind att
            exact .inr ⟨ind,b,c,att,h,ha,by rw [hs]⟩

theorem wanted_state {name : String} (h : wanted dev name = .ok .state) :
    lowerName name = "state".toList := by
  obtain ⟨hl,-⟩ | ⟨-,hw⟩ | ⟨e,-,hw⟩ | ⟨ind,b,c,att,-,-,hw⟩ := wanted_cases dev name
  · exact hl
  · rw [h] at hw
    cases hw
  · rw [h] at hw
    cases hw
  · rw [h] at hw
    cases hw

theorem wanted_status {name : String} (h : wanted dev name = .ok .status) :
    lowerName name = "status".toList := by
  obtain ⟨-,hw⟩ | ⟨hl,-⟩ | ⟨e,-,hw⟩ | ⟨ind,b,c,att,-,-,hw⟩ := wanted_cases dev name
  · rw [h] at hw
    cases hw
  · exact hl
  · rw [h] at hw
    cases hw
  · rw [h] at hw
    cases hw

theorem wanted_of_state {name : String} (h : lowerName name = "state".toList) :
    wanted dev name = .ok .state := by
  rw [wanted,if_pos h]

theorem wanted_of_status {name : String} (h : lowerName name = "status".toList) :
    wanted dev name = .ok .status := by
  have hne : lowerName name ≠ "state".toList := by
    rw [h]
    decide
  rw [wanted,if_neg hne,if_pos h]

theorem wanted_att {name : String} {ind : Nat} {b c : Bool} (h : wanted dev name = .ok (.att ind b c)) :
    getAttrIndByName dev.names name = .ok ind ∧ ∃ att, dev.attrs[ind]? = some att := by
  obtain ⟨-,hw⟩ | ⟨-,hw⟩ | ⟨e,-,hw⟩ | ⟨ind,b,c,att,hg,ha,hw⟩ := wanted_cases dev name
  · rw [h] at hw
    cases hw
  · rw [h] at hw
    cases hw
  · rw [h] at hw
    cases hw
  · rw [h] at hw
    cases hw
    exact ⟨hg,att,ha⟩

theorem wanted_error {name : String} {e : DevErrorList} (h : wanted dev name = .error e) : e ≠ [] := by
  obtain ⟨-,hw⟩ | ⟨-,hw⟩ | ⟨e,he,hw⟩ | ⟨ind,b,c,att,-,-,hw⟩ := wanted_cases dev name
  · rw [h] at hw
    cases hw
  · rw [h] at hw
    cases hw
  · rw [h] at hw
    cases hw
    exact he
  · rw [h] at hw
    cases hw

theorem name_at (hn : n ∈ names.zipIdx) : names.getD n.2 "" = n.1 := by
  rw [List.getD_eq_getElem?_getD,List.mem_zipIdx_iff_getElem?.mp hn]
  rfl

theorem name_inj (hd : (names.map lowerName).Nodup) (hn : n ∈ names.zipIdx) (hm : m ∈ names.zipIdx)
    (h : lowerName n.1 = lowerName m.1) : n = m := by
  rw [← List.zipIdx_map_fst 0 names,List.map_map] at hd
  exact List.inj_on_of_nodup_map hd hn hm h

/-- Different names have different attributes. -/
theorem att_inj (hd : (names.map lowerName).Nodup) (hn : n ∈ names.zipIdx) (hm : m ∈ names.zipIdx)
    {ind : Nat} {b c b' c' : Bool} (h : wanted dev n.1 = .ok (.att ind b c))
    (h' : wanted dev m.1 = .ok (.att ind b' c')) : n = m := by
  obtain ⟨x,hx,hxn⟩ := attr_ind_found (wanted_att h).1
  obtain ⟨y,hy,hym⟩ := attr_ind_found (wanted_att h').1
  rw [hx,Option.some.injEq] at hy
  subst y
  exact name_inj hd hn hm (hxn.symm.trans hym)

theorem wantedIdx_some {x : Wanted} {i : Nat} (h : wantedIdx dev x names.zipIdx = some i) :
    ∃ n ∈ names.zipIdx, n.2 = i ∧ wanted dev n.1 = .ok x := by
  obtain ⟨n,hf,hi⟩ := Option.map_eq_some_iff.mp h
  refine ⟨n,List.mem_reverse.mp (List.mem_of_find?_eq_some hf),hi,?_⟩
  have hw := List.find?_some hf
  unfold isWanted at hw
  split at hw
  next y hy =>
    rw [hy,of_decide_eq_true hw]
  next => cases hw

theorem wantedIdx_eq (hd : (names.map lowerName).Nodup) (hn : n ∈ names.zipIdx) {x : Wanted}
    (hx : ∀ m : String × Nat, wanted dev m.1 = .ok x → lowerName m.1 = lowerName n.1)
    (h : wanted dev n.1 = .ok x) : wantedIdx dev x names.zipIdx = some n.2 := by
  cases hi : wantedIdx dev x names.zipIdx with
  | none =>
    have hf := Option.map_eq_none_iff.mp hi
    have hno := List.find?_eq_none.mp hf n (List.mem_reverse.mpr hn)
    simp [isWanted,h] at hno
  | some i =>
    obtain ⟨m,hm,hmi,hw⟩ := wantedIdx_some hi
    rw [← hmi,name_inj hd hm hn (hx m hw)]

theorem stateIdx_eq (hd : (names.map lowerName).Nodup) (hn : n ∈ names.zipIdx)
    (h : wanted dev n.1 = .ok .state) : wantedIdx dev .state names.zipIdx = some n.2 :=
  wantedIdx_eq hd hn (fun _ hm => (wanted_state hm).trans (wanted_state h).symm) h

theorem statusIdx_eq (hd : (names.map lowerName).Nodup) (hn : n ∈ names.zipIdx)
    (h : wanted dev n.1 = .ok .status) : wantedIdx dev .status names.zipIdx = some n.2 :=
  wantedIdx_eq hd hn (fun _ hm => (wanted_status hm).trans (wanted_status h).symm) h

theorem wantedIdx_ne (hn : n ∈ names.zipIdx) {x : Wanted} (h : wanted dev n.1 ≠ .ok x) :
    wantedIdx dev x names.zipIdx ≠ some n.2 := by
  intro hi
  obtain ⟨m,hm,hmi,hw⟩ := wantedIdx_some hi
  rw [place_inj hm hn hmi] at hw
  exact h hw

end Wanted

section Loops
variable {dev idl} {names : List String} {slot : Nat → Nat} {n : String × Nat} {r r' : Run α}

/-- A loop over attributes of the call, each of them once. -/
structure Listed (dev : DeviceImpl α) (names : List String) (l : List AttIdx) : Prop where
  places : (l.map AttIdx.idxInNames).Nodup
  wanted : ∀ a ∈ l, ∃ n ∈ names.zipIdx, n.2 = a.idxInNames ∧
    ∃ b c, wanted dev n.1 = .ok (.att a.idxInMultiAttr b c)

theorem wantedAttr_some {a : AttIdx} :
    wantedAttr dev n = some a ↔ n.2 = a.idxInNames ∧
      ∃ c, wanted dev n.1 = .ok (.att a.idxInMultiAttr true c) := by
  unfold wantedAttr
  constructor
  · intro h
    split at h
    next ind c hw =>
      cases h
      exact ⟨rfl,c,hw⟩
    next => cases h
  · rintro ⟨hi,c,hw⟩
    rw [hw]
    simp only [hi]

theorem wantedWAttr_some {a : AttIdx} :
    wantedWAttr dev n = some a ↔ n.2 = a.idxInNames ∧
      ∃ b, wanted dev n.1 = .ok (.att a.idxInMultiAttr b true) := by
  unfold wantedWAttr
  constructor
  · intro h
    split at h
    next ind b hw =>
      cases h
      exact ⟨rfl,b,hw⟩
    next => cases h
  · rintro ⟨hi,b,hw⟩
    rw [hw]
    simp only [hi]

theorem filterMap_places {f : String × Nat → Option AttIdx}
    (hf : ∀ n a, f n = some a → n.2 = a.idxInNames) (names : List String) :
    ((names.zipIdx.filterMap f).map AttIdx.idxInNames).Nodup := by
  have h := places_nodup (List.Sublist.refl names.zipIdx)
  rw [List.Nodup,List.pairwise_map] at h
  rw [List.Nodup,List.pairwise_map,List.pairwise_filterMap]
  apply h.imp
  intro n m hnm a ha b hb he
  rw [← hf n a ha,← hf m b hb] at he
  exact hnm he

variable (dev) in
theorem listed_read (names : List String) : Listed dev names (names.zipIdx.filterMap (wantedAttr dev)) := by
  refine ⟨filterMap_places (fun n a h => (wantedAttr_some.mp h).1) names,fun a ha => ?_⟩
  obtain ⟨n,hn,h⟩ := List.mem_filterMap.mp ha
  obtain ⟨hi,c,hw⟩ := wantedAttr_some.mp h
  exact ⟨n,hn,hi,true,c,hw⟩

variable (dev) in
theorem listed_write (names : List String) : Listed dev names (names.zipIdx.filterMap (wantedWAttr dev)) := by
  refine ⟨filterMap_places (fun n a h => (wantedWAttr_some.mp h).1) names,fun a ha => ?_⟩
  obtain ⟨n,hn,h⟩ := List.mem_filterMap.mp ha
  obtain ⟨hi,b,hw⟩ := wantedWAttr_some.mp h
  exact ⟨n,hn,hi,b,true,hw⟩

theorem upd_other {i j : Nat} (h : j ≠ i) (r : Run α) (f : AttributeValue α → AttributeValue α) :
    (r.upd i f).reply j = r.reply j :=
  Function.update_of_ne h _ _

theorem upd_same (r : Run α) (i : Nat) (f : AttributeValue α → AttributeValue α) :
    (r.upd i f).reply i = f (r.reply i) :=
  Function.update_self _ _ _

variable {f : Attribute α → Reading α → Option DevErrorList × Reading α} {name : Nat → String}

/-- What one round does with the element and the attribute it is for. -/
def attOwn (f : Attribute α → Reading α → Option DevErrorList × Reading α) (att : Attribute α)
    (name : String) (p : AttributeValue α × Reading α) : AttributeValue α × Reading α :=
  (match (f att p.2).1 with
    | none => p.1
    | some e => errorFrom e name p.1,(f att p.2).2)

theorem attStep_own {a : AttIdx} {att : Attribute α} (ha : dev.attrs[a.idxInMultiAttr]? = some att)
    (r : Run α) :
    ((attStep dev f slot name r a).reply (slot a.idxInNames),(attStep dev f slot name r a).held a.idxInMultiAttr) =
      attOwn f att (name a.idxInNames) (r.reply (slot a.idxInNames),r.held a.idxInMultiAttr) := by
  unfold attStep attOwn
  simp only [ha]
  cases (f att (r.held a.idxInMultiAttr)).1 with
  | none => simp
  | some e => simp [Run.upd]

theorem attStep_reply {a : AttIdx} {i : Nat} (hi : i ≠ slot a.idxInNames) (r : Run α) :
    (attStep dev f slot name r a).reply i = r.reply i := by
  unfold attStep
  split
  · rfl
  · simp only []
    split
    · rfl
    · exact upd_other hi _ _

theorem attStep_held {a : AttIdx} {j : Nat} (hj : j ≠ a.idxInMultiAttr) (r : Run α) :
    (attStep dev f slot name r a).held j = r.held j := by
  unfold attStep
  split
  · rfl
  · simp only []
    split
    · exact Function.update_of_ne hj _ _
    · exact Function.update_of_ne hj _ _

/-- Different names have different elements of the reply. -/
def Spread (slot : Nat → Nat) (names : List String) : Prop :=
  ∀ n ∈ names.zipIdx, ∀ m ∈ names.zipIdx, slot n.2 = slot m.2 → n = m

variable {l : List AttIdx}

theorem att_loop_outside (hl : Listed dev names l) {i : Nat} (hi : ∀ n ∈ names.zipIdx, i ≠ slot n.2)
    (r : Run α) : (l.foldl (attStep dev f slot name) r).reply i = r.reply i := by
  refine foldl_unchanged (p := fun r : Run α => r.reply i) (fun a ha s => ?_) r
  obtain ⟨m,hm,hp,-⟩ := hl.wanted a ha
  exact attStep_reply (hp ▸ hi m hm) s

theorem att_loop_other (hl : Listed dev names l) (hs : Spread slot names) (hn : n ∈ names.zipIdx)
    (hw : ∀ j b c, wanted dev n.1 ≠ .ok (.att j b c)) (r : Run α) :
    (l.foldl (attStep dev f slot name) r).reply (slot n.2) = r.reply (slot n.2) := by
  refine foldl_unchanged (p := fun r : Run α => r.reply (slot n.2)) (fun a ha s => ?_) r
  obtain ⟨m,hm,hp,b,c,hmw⟩ := hl.wanted a ha
  refine attStep_reply (fun he => ?_) s
  rw [← hp] at he
  rw [← hs n hn m hm he] at hmw
  exact hw _ _ _ hmw

theorem att_loop_att (hl : Listed dev names l) (hs : Spread slot names)
    (hd : (names.map lowerName).Nodup) (hn : n ∈ names.zipIdx) {j : Nat} {b c : Bool}
    (hw : wanted dev n.1 = .ok (.att j b c)) {att : Attribute α} (ha : dev.attrs[j]? = some att)
    (hname : name n.2 = n.1) (r : Run α) :
    ((l.foldl (attStep dev f slot name) r).reply (slot n.2),(l.foldl (attStep dev f slot name) r).held j) =
      if (⟨n.2,j⟩ : AttIdx) ∈ l then attOwn f att n.1 (r.reply (slot n.2),r.held j)
      else (r.reply (slot n.2),r.held j) := by
  have hframe : ∀ x ∈ l, x ≠ ⟨n.2,j⟩ → ∀ s : Run α,
      ((attStep dev f slot name s x).reply (slot n.2),(attStep dev f slot name s x).held j) =
        (s.reply (slot n.2),s.held j) := by
    intro x hx hne s
    obtain ⟨m,hm,hp,b',c',hmw⟩ := hl.wanted x hx
    have hmn : m ≠ n := by
      intro he
      subst m
      rw [hw] at hmw
      cases hmw
      exact hne (by rw [hp])
    rw [attStep_reply,attStep_held]
    · intro he
      rw [← he] at hmw
      exact hmn (att_inj hd hm hn hmw hw)
    · intro he
      rw [← hp] at he
      exact hmn (hs m hm n hn he.symm)
  split
  next hmem =>
    refine foldl_own (p := fun r : Run α => (r.reply (slot n.2),r.held j))
      (h := attOwn f att n.1) hl.places.of_map hmem (fun s => ?_) hframe r
    rw [← hname]
    exact attStep_own (a := ⟨n.2,j⟩) ha s
  next hmem =>
    exact foldl_unchanged (p := fun r : Run α => (r.reply (slot n.2),r.held j))
      (fun x hx => hframe x hx (fun he => hmem (he ▸ hx))) r

theorem mem_read (hn : n ∈ names.zipIdx) {j : Nat} {b c : Bool} (hw : wanted dev n.1 = .ok (.att j b c)) :
    (⟨n.2,j⟩ : AttIdx) ∈ names.zipIdx.filterMap (wantedAttr dev) ↔ b = true := by
  rw [List.mem_filterMap]
  constructor
  · rintro ⟨m,hm,h⟩
    obtain ⟨hi,c',hmw⟩ := wantedAttr_some.mp h
    rw [place_inj hm hn hi,hw] at hmw
    cases hmw
    rfl
  · rintro rfl
    exact ⟨n,hn,wantedAttr_some.mpr ⟨rfl,c,hw⟩⟩

theorem mem_write (hn : n ∈ names.zipIdx) {j : Nat} {b c : Bool} (hw : wanted dev n.1 = .ok (.att j b c)) :
    (⟨n.2,j⟩ : AttIdx) ∈ names.zipIdx.filterMap (wantedWAttr dev) ↔ c = true := by
  rw [List.mem_filterMap]
  constructor
  · rintro ⟨m,hm,h⟩
    obtain ⟨hi,b',hmw⟩ := wantedWAttr_some.mp h
    rw [place_inj hm hn hi,hw] at hmw
    cases hmw
    rfl
  · rintro rfl
    exact ⟨n,hn,wantedWAttr_some.mpr ⟨rfl,b,hw⟩⟩

theorem wantedStep_held (r : Run α) (n : String × Nat) : (wantedStep dev slot r n).held = r.held := by
  unfold wantedStep
  split
  · rfl
  · rfl

theorem wanted_loop_held (l : List (String × Nat)) (r : Run α) :
    (l.foldl (wantedStep dev slot) r).held = r.held :=
  foldl_unchanged (p := Run.held) (fun n _ s => wantedStep_held s n) r

theorem wantedStep_reply {m : String × Nat} {i : Nat} (hi : i ≠ slot m.2) (r : Run α) :
    (wantedStep dev slot r m).reply i = r.reply i := by
  unfold wantedStep
  split
  · exact upd_other hi _ _
  · rfl

variable (dev) in
def wantedOwn (n : String) (back : AttributeValue α) : AttributeValue α :=
  match wanted dev n with
  | .error e => errorFrom e n back
  | .ok _ => back

theorem wanted_loop (hs : Spread slot names) (hn : n ∈ names.zipIdx) (r : Run α) :
    (names.zipIdx.foldl (wantedStep dev slot) r).reply (slot n.2) = wantedOwn dev n.1 (r.reply (slot n.2)) := by
  refine foldl_own (p := fun r : Run α => r.reply (slot n.2)) (zipIdx_nodup names) hn (fun s => ?_)
    (fun m hm hne s => ?_) r
  · unfold wantedStep wantedOwn
    cases wanted dev n.1 with
    | error e => exact upd_same _ _ _
    | ok x => rfl
  · exact wantedStep_reply (fun he => hne (hs m hm n hn he.symm)) s

theorem wanted_loop_outside {i : Nat} (hi : ∀ n ∈ names.zipIdx, i ≠ slot n.2) (r : Run α) :
    (names.zipIdx.foldl (wantedStep dev slot) r).reply i = r.reply i :=
  foldl_unchanged (p := fun r : Run α => r.reply i) (fun n hn s => wantedStep_reply (hi n hn) s) r

/-- The run after the two loops over the attributes. -/
def gathered (dev : DeviceImpl α) (names : List String) (slot : Nat → Nat) (r : Run α) : Run α :=
  (names.zipIdx.filterMap (wantedWAttr dev)).foldl
    (attStep dev setRvalueAtt slot (fun i => names.getD i ""))
    ((names.zipIdx.filterMap (wantedAttr dev)).foldl
      (attStep dev readAtt slot (fun i => names.getD i ""))
      (names.zipIdx.foldl (wantedStep dev slot) r))

theorem gathered_outside {i : Nat} (hi : ∀ n ∈ names.zipIdx, i ≠ slot n.2) (r : Run α) :
    (gathered dev names slot r).reply i = r.reply i := by
  unfold gathered
  rw [att_loop_outside (listed_write dev names) hi,att_loop_outside (listed_read dev names) hi,
    wanted_loop_outside hi]

theorem gathered_other (hs : Spread slot names) (hn : n ∈ names.zipIdx)
    (hw : ∀ j b c, wanted dev n.1 ≠ .ok (.att j b c)) (r : Run α) :
    (gathered dev names slot r).reply (slot n.2) = wantedOwn dev n.1 (r.reply (slot n.2)) := by
  unfold gathered
  rw [att_loop_other (listed_write dev names) hs hn hw,att_loop_other (listed_read dev names) hs hn hw,
    wanted_loop hs hn]

theorem attOwn_twice (att : Attribute α) (b c : Bool) (name : String) (el : AttributeValue α)
    (x : Reading α) :
    (if c = true then attOwn setRvalueAtt att name (if b = true then attOwn readAtt att name (el,x) else (el,x))
      else if b = true then attOwn readAtt att name (el,x) else (el,x)) =
      (match (readAlone att b c x).1 with
        | none => el
        | some e => errorFrom e name el,(readAlone att b c x).2) := by
  cases b with
  | false =>
    cases c with
    | false => rfl
    | true =>
      simp only [readAlone,attOwn,if_true,Bool.false_eq_true,if_false,Option.or_none]
  | true =>
    cases c with
    | false => simp only [readAlone,attOwn,if_true,Bool.false_eq_true,if_false,Option.none_or]
    | true =>
      simp only [readAlone,attOwn,if_true]
      cases (setRvalueAtt att (readAtt att x).2).1 with
      | none => rfl
      | some e =>
        cases (readAtt att x).1 with
        | none => rfl
        | some e' => rfl

theorem gathered_att (hs : Spread slot names) (hd : (names.map lowerName).Nodup)
    (hn : n ∈ names.zipIdx) {j : Nat} {b c : Bool} (hw : wanted dev n.1 = .ok (.att j b c))
    {att : Attribute α} (ha : dev.attrs[j]? = some att) (r : Run α) :
    ((gathered dev names slot r).reply (slot n.2),(gathered dev names slot r).held j) =
      (match (readAlone att b c (r.held j)).1 with
        | none => r.reply (slot n.2)
        | some e => errorFrom e n.1 (r.reply (slot n.2)),(readAlone att b c (r.held j)).2) := by
  have h0 : (names.zipIdx.foldl (wantedStep dev slot) r).reply (slot n.2) = r.reply (slot n.2) := by
    rw [wanted_loop hs hn,wantedOwn,hw]
  unfold gathered
  rw [att_loop_att (listed_write dev names) hs hd hn hw ha (name_at hn),
    att_loop_att (listed_read dev names) hs hd hn hw ha (name_at hn),h0,wanted_loop_held]
  simp only [mem_read hn hw,mem_write hn hw]
  exact attOwn_twice att b c n.1 _ _

end Loops

section ToReply
variable {dev idl} {names : List String} {slot : Nat → Nat} {n : String × Nat} {r r' : Run α}

theorem computed_held {β : Type} (res : Except DevErrorList β) (idx : Option Nat) (name : Nat → String)
    (r : Run α) : (computed res idx name r).held = r.held := by
  unfold computed
  split
  · rfl
  · rfl

theorem computed_other {β : Type} {res : Except DevErrorList β} {idx : Option Nat} {i : Nat}
    (h : ∀ e, res = .error e → idx ≠ some i) (name : Nat → String) (r : Run α) :
    (computed res idx name r).reply i = r.reply i := by
  unfold computed
  split
  next k e => exact upd_other (fun he => h e rfl (by rw [he])) _ _
  next => rfl

theorem computed_own {β : Type} (e : DevErrorList) (i : Nat) (name : Nat → String) (r : Run α) :
    (computed (.error e : Except DevErrorList β) (some i) name r).reply i =
      errorFrom e (name i) (r.reply i) :=
  upd_same _ _ _

variable (dev idl) in
def toReplyOwn (stateIdx statusIdx : Option Nat) (n : String × Nat) (held : Nat → Reading α)
    (back : AttributeValue α) : AttributeValue α :=
  if stateIdx = some n.2 then
    if back.errList = [] then state2attr (dev.devState.toOption.getD .unknown) back else back
  else if statusIdx = some n.2 then
    if back.errList = [] then status2attr dev.devStatus.toOption back else back
  else if back.errList = [] then
    match getAttrIndByName dev.names n.1 with
    | .error _ => back
    | .ok ind =>
      match dev.attrs[ind]? with
      | none => back
      | some att => attToReply dev idl n.1 att (held ind) back
  else back

variable {stateIdx statusIdx : Option Nat}

theorem upd_idle {i : Nat} {f : AttributeValue α → AttributeValue α} (h : f (r.reply i) = r.reply i) :
    r.upd i f = r := by
  unfold Run.upd
  rw [h,Function.update_eq_self]

theorem upd_congr {i : Nat} {f g : AttributeValue α → AttributeValue α}
    (h : f (r.reply i) = g (r.reply i)) : r.upd i f = r.upd i g := by
  unfold Run.upd
  rw [h]

/-- All that a round of the last loop does. -/
theorem toReplyStep_ok (h : toReplyStep dev idl slot stateIdx statusIdx r n = .ok r') :
    r' = r.upd (slot n.2) (toReplyOwn dev idl stateIdx statusIdx n r.held) := by
  unfold toReplyStep at h
  unfold toReplyOwn
  split at h
  next h1 =>
    simp only [if_pos h1]
    cases h
    split
    next h2 => exact upd_congr (if_pos h2).symm
    next h2 => exact (upd_idle (if_neg h2)).symm
  next h1 =>
    simp only [if_neg h1]
    split at h
    next h2 =>
      simp only [if_pos h2]
      cases h
      split
      next h3 => exact upd_congr (if_pos h3).symm
      next h3 => exact (upd_idle (if_neg h3)).symm
    next h2 =>
      simp only [if_neg h2]
      split at h
      next h3 =>
        cases hg : getAttrIndByName dev.names n.1 with
        | error e =>
          rw [hg] at h
          cases h
        | ok ind =>
          rw [hg] at h
          cases ha : dev.attrs[ind]? with
          | none =>
            simp only [ha] at h ⊢
            cases h
            exact (upd_idle (if_pos h3)).symm
          | some att =>
            simp only [ha] at h ⊢
            cases h
            exact upd_congr (if_pos h3).symm
      next h3 =>
        cases h
        exact (upd_idle (if_neg h3)).symm

theorem toReplyStep_held (h : toReplyStep dev idl slot stateIdx statusIdx r n = .ok r') :
    r'.held = r.held := by
  rw [toReplyStep_ok h]
  rfl

theorem toReplyStep_reply {i : Nat} (hi : i ≠ slot n.2)
    (h : toReplyStep dev idl slot stateIdx statusIdx r n = .ok r') : r'.reply i = r.reply i := by
  rw [toReplyStep_ok h]
  exact upd_other hi _ _

theorem toReplyStep_own (h : toReplyStep dev idl slot stateIdx statusIdx r n = .ok r') :
    r'.reply (slot n.2) = toReplyOwn dev idl stateIdx statusIdx n r.held (r.reply (slot n.2)) := by
  rw [toReplyStep_ok h]
  exact upd_same _ _ _

theorem to_reply_loop (hs : Spread slot names) (hn : n ∈ names.zipIdx)
    (h : names.zipIdx.foldlM (toReplyStep dev idl slot stateIdx statusIdx) r = .ok r') :
    r'.reply (slot n.2) = toReplyOwn dev idl stateIdx statusIdx n r.held (r.reply (slot n.2)) := by
  have hv := foldlM_own (p := fun r : Run α => (r.reply (slot n.2),r.held))
    (h := fun v => (toReplyOwn dev idl stateIdx statusIdx n v.2 v.1,v.2)) (zipIdx_nodup names) hn
    (fun s s' hs' => ?_) (fun m hm hne s s' hs' => ?_) h
  · exact (Prod.ext_iff.mp hv).1
  · rw [toReplyStep_own hs',toReplyStep_held hs']
  · rw [toReplyStep_reply (fun he => hne (hs m hm n hn he.symm)) hs',toReplyStep_held hs']

theorem to_reply_outside {i : Nat} (hi : ∀ n ∈ names.zipIdx, i ≠ slot n.2)
    (h : names.zipIdx.foldlM (toReplyStep dev idl slot stateIdx statusIdx) r = .ok r') :
    r'.reply i = r.reply i :=
  foldlM_unchanged (p := fun r : Run α => r.reply i)
    (fun n hn _ _ hs' => toReplyStep_reply (hi n hn) hs') h

variable (idl) in
/-- The last loop returns unless it finds a name that is unknown and without errors. -/
theorem to_reply_returns (hs : Spread slot names) (hd : (names.map lowerName).Nodup)
    (hr : ∀ n ∈ names.zipIdx, ∀ e, wanted dev n.1 = .error e → (r.reply (slot n.2)).errList ≠ []) :
    ∃ r', names.zipIdx.foldlM (toReplyStep dev idl slot (wantedIdx dev .state names.zipIdx)
      (wantedIdx dev .status names.zipIdx)) r = .ok r' := by
  refine foldlM_returns (P := fun n r => ∀ e, wanted dev n.1 = .error e →
    (r.reply (slot n.2)).errList ≠ []) (zipIdx_nodup names) (fun n hn s hP => ?_)
    (fun m hm n hn hne s s' hs' hP => ?_) hr
  · unfold toReplyStep
    obtain ⟨-,hw⟩ | ⟨-,hw⟩ | ⟨e,-,hw⟩ | ⟨ind,b,c,att,hg,ha,-⟩ := wanted_cases dev n.1
    · rw [if_pos (stateIdx_eq hd hn hw)]
      exact ⟨_,rfl⟩
    · split
      · exact ⟨_,rfl⟩
      · rw [if_pos (statusIdx_eq hd hn hw)]
        exact ⟨_,rfl⟩
    · have hne : ¬ noErr s (slot n.2) := hP e hw
      rw [if_neg hne]
      repeat' split
      all_goals exact ⟨_,rfl⟩
    · simp only [hg,ha]
      repeat' split
      all_goals exact ⟨_,rfl⟩
  · intro e he
    rw [toReplyStep_reply (fun h => hne (hs m hm n hn h.symm)) hs']
    exact hP e he

end ToReply

section Clean
variable {dev idl} {back : AttributeValue α}

theorem errorFrom_clean (h : back.value = none) (e : DevErrorList) (name : String) :
    errorFrom e name back = errorFrom e name .blank := by
  unfold errorFrom
  rw [h]
  rfl

theorem state2attr_clean (h : back.errList = []) (s : DevState) :
    state2attr s back = state2attr s .blank := by
  unfold state2attr
  rw [h]
  rfl

theorem status2attr_clean (h : back.errList = []) (s : Option String) :
    status2attr s back = status2attr s .blank := by
  unfold status2attr
  rw [h]
  rfl

theorem attToReply_clean (hv : back.value = none) (he : back.errList = []) (name : String)
    (att : Attribute α) (x : Reading α) :
    attToReply dev idl name att x back = attToReply dev idl name att x .blank := by
  unfold attToReply
  split
  · split
    · exact errorFrom_clean hv _ _
    · split
      · unfold dataIntoNetObject
        split
        · rw [errorFrom_clean hv]
        · unfold initOutData
          rw [he]
          rfl
      · exact errorFrom_clean hv _ _
  · unfold initOutDataQuality
    rw [hv,he]
    rfl

end Clean

section Device
variable {dev idl} {names : List String} {slot : Nat → Nat} {n : String × Nat} {r r' : Run α}

/-- The state or the status, when it fails, has errors and stands at its own place. -/
def InPlace {β : Type} (dev : DeviceImpl α) (res : Except DevErrorList β) (x : Wanted)
    (names : List String) (slot : Nat → Nat) : Prop :=
  ∀ n ∈ names.zipIdx, wanted dev n.1 = .ok x → ∀ e, res = .error e → e ≠ [] ∧ slot n.2 = n.2

variable {β : Type} {res : Except DevErrorList β} {x : Wanted}

def computedOwn (res : Except DevErrorList β) (name : String) (back : AttributeValue α) :
    AttributeValue α :=
  match res with
  | .error e => errorFrom e name back
  | .ok _ => back

theorem computed_here (hp : InPlace dev res x names slot) (hn : n ∈ names.zipIdx)
    (hw : wanted dev n.1 = .ok x) (hi : wantedIdx dev x names.zipIdx = some n.2) (r : Run α) :
    (computed res (wantedIdx dev x names.zipIdx) (fun i => names.getD i "") r).reply (slot n.2) =
      computedOwn res n.1 (r.reply (slot n.2)) := by
  cases hr : res with
  | ok y => exact computed_other (fun e he => (by cases he)) _ _
  | error e =>
    rw [(hp n hn hw e hr).2,hi]
    refine (computed_own e n.2 _ r).trans ?_
    simp only [name_at hn,computedOwn]

theorem computed_elsewhere (hp : InPlace dev res x names slot) {i : Nat}
    (hi : ∀ m ∈ names.zipIdx, wanted dev m.1 = .ok x → i ≠ slot m.2) (r : Run α) :
    (computed res (wantedIdx dev x names.zipIdx) (fun i => names.getD i "") r).reply i = r.reply i := by
  refine computed_other (fun e he hx => ?_) _ _
  obtain ⟨m,hm,hmi,hw⟩ := wantedIdx_some hx
  exact hi m hm hw (hmi.symm.trans (hp m hm hw e he).2.symm)

/-- The run before the last loop. -/
def beforeReply (dev : DeviceImpl α) (names : List String) (slot : Nat → Nat) (r : Run α) : Run α :=
  computed dev.devStatus (wantedIdx dev .status names.zipIdx) (fun i => names.getD i "")
    (computed dev.devState (wantedIdx dev .state names.zipIdx) (fun i => names.getD i "")
      (gathered dev names slot r))

theorem noExcept_eq (hh : hookErrors dev names.zipIdx = none) (secondTry : Bool) (idx : List Nat)
    (r : Run α) :
    readAttributesNoExcept dev idl names secondTry idx r =
      names.zipIdx.foldlM (toReplyStep dev idl (index secondTry idx) (wantedIdx dev .state names.zipIdx)
        (wantedIdx dev .status names.zipIdx)) (beforeReply dev names (index secondTry idx) r) := by
  unfold readAttributesNoExcept
  simp only [hh]
  rfl

theorem beforeReply_held (j : Nat) : (beforeReply dev names slot r).held j = (gathered dev names slot r).held j := by
  rw [beforeReply,computed_held,computed_held]

variable (dev) in
theorem slot_ne (hs : Spread slot names) (hn : n ∈ names.zipIdx) {m : String × Nat} (hm : m ∈ names.zipIdx)
    (h : wanted dev m.1 ≠ wanted dev n.1) : slot n.2 ≠ slot m.2 := by
  intro he
  rw [hs n hn m hm he] at h
  exact h rfl

structure BothInPlace (dev : DeviceImpl α) (names : List String) (slot : Nat → Nat) : Prop where
  state : InPlace dev dev.devState .state names slot
  status : InPlace dev dev.devStatus .status names slot

theorem state_before (hs : Spread slot names) (hd : (names.map lowerName).Nodup)
    (hp : BothInPlace dev names slot) (hn : n ∈ names.zipIdx) (hw : wanted dev n.1 = .ok .state) :
    (beforeReply dev names slot r).reply (slot n.2) =
      computedOwn dev.devState n.1 (r.reply (slot n.2)) := by
  have hne : ∀ m ∈ names.zipIdx, wanted dev m.1 = .ok .status → slot n.2 ≠ slot m.2 :=
    fun m hm hmw => slot_ne dev hs hn hm (by rw [hmw,hw]; nofun)
  rw [beforeReply,computed_elsewhere hp.status hne,computed_here hp.state hn hw (stateIdx_eq hd hn hw),
    gathered_other hs hn (by rw [hw]; nofun),wantedOwn,hw]

theorem status_before (hs : Spread slot names) (hd : (names.map lowerName).Nodup)
    (hp : BothInPlace dev names slot) (hn : n ∈ names.zipIdx) (hw : wanted dev n.1 = .ok .status) :
    (beforeReply dev names slot r).reply (slot n.2) =
      computedOwn dev.devStatus n.1 (r.reply (slot n.2)) := by
  have hne : ∀ m ∈ names.zipIdx, wanted dev m.1 = .ok .state → slot n.2 ≠ slot m.2 :=
    fun m hm hmw => slot_ne dev hs hn hm (by rw [hmw,hw]; nofun)
  rw [beforeReply,computed_here hp.status hn hw (statusIdx_eq hd hn hw),computed_elsewhere hp.state hne,
    gathered_other hs hn (by rw [hw]; nofun),wantedOwn,hw]

/-- Elements that are neither state nor status go into the last loop as the attributes left them. -/
theorem other_before (hs : Spread slot names) (hp : BothInPlace dev names slot) (hn : n ∈ names.zipIdx)
    (hst : wanted dev n.1 ≠ .ok .state) (hsu : wanted dev n.1 ≠ .ok .status) :
    (beforeReply dev names slot r).reply (slot n.2) = (gathered dev names slot r).reply (slot n.2) := by
  have h1 : ∀ m ∈ names.zipIdx, wanted dev m.1 = .ok .state → slot n.2 ≠ slot m.2 :=
    fun m hm hmw => slot_ne dev hs hn hm (fun he => hst (he ▸ hmw))
  have h2 : ∀ m ∈ names.zipIdx, wanted dev m.1 = .ok .status → slot n.2 ≠ slot m.2 :=
    fun m hm hmw => slot_ne dev hs hn hm (fun he => hsu (he ▸ hmw))
  rw [beforeReply,computed_elsewhere hp.status h2,computed_elsewhere hp.state h1]

/-- What the call for the device starts from: an element of its own for every name, all
names different, and nothing in the elements yet. -/
structure Fresh (names : List String) (slot : Nat → Nat) (r : Run α) : Prop where
  spread : Spread slot names
  distinct : (names.map lowerName).Nodup
  noErrors : ∀ n ∈ names.zipIdx, (r.reply (slot n.2)).errList = []
  noValue : ∀ n ∈ names.zipIdx, (r.reply (slot n.2)).value = none

variable (dev idl names slot r n) in
/-- The last loop, for one name. -/
def lastly : AttributeValue α :=
  toReplyOwn dev idl (wantedIdx dev .state names.zipIdx) (wantedIdx dev .status names.zipIdx) n
    (beforeReply dev names slot r).held ((beforeReply dev names slot r).reply (slot n.2))

theorem lastly_state (hf : Fresh names slot r) (hp : BothInPlace dev names slot) (hn : n ∈ names.zipIdx)
    (hw : wanted dev n.1 = .ok .state) :
    lastly dev idl names slot n r = computedAnswer dev.devState n.1 state2attr := by
  rw [lastly,state_before hf.spread hf.distinct hp hn hw,toReplyOwn,if_pos (stateIdx_eq hf.distinct hn hw)]
  cases he : dev.devState with
  | ok s =>
    rw [computedOwn,if_pos (hf.noErrors n hn),state2attr_clean (hf.noErrors n hn)]
    rfl
  | error e =>
    have hne : (errorFrom e n.1 (r.reply (slot n.2))).errList ≠ [] := (hp.state n hn hw e he).1
    rw [computedOwn,if_neg hne,errorFrom_clean (hf.noValue n hn)]
    rfl

theorem lastly_status (hf : Fresh names slot r) (hp : BothInPlace dev names slot) (hn : n ∈ names.zipIdx)
    (hw : wanted dev n.1 = .ok .status) :
    lastly dev idl names slot n r = computedAnswer dev.devStatus n.1 (fun s => status2attr (some s)) := by
  have hne : wantedIdx dev .state names.zipIdx ≠ some n.2 := wantedIdx_ne hn (by rw [hw]; nofun)
  rw [lastly,status_before hf.spread hf.distinct hp hn hw,toReplyOwn,if_neg hne,
    if_pos (statusIdx_eq hf.distinct hn hw)]
  cases he : dev.devStatus with
  | ok s =>
    rw [computedOwn,if_pos (hf.noErrors n hn),status2attr_clean (hf.noErrors n hn)]
    rfl
  | error e =>
    have hne : (errorFrom e n.1 (r.reply (slot n.2))).errList ≠ [] := (hp.status n hn hw e he).1
    rw [computedOwn,if_neg hne,errorFrom_clean (hf.noValue n hn)]
    rfl

theorem lastly_error (hf : Fresh names slot r) (hp : BothInPlace dev names slot) (hn : n ∈ names.zipIdx)
    {e : DevErrorList} (hw : wanted dev n.1 = .error e) :
    lastly dev idl names slot n r = errorFrom e n.1 .blank := by
  have hst : wanted dev n.1 ≠ .ok .state := by rw [hw]; nofun
  have hsu : wanted dev n.1 ≠ .ok .status := by rw [hw]; nofun
  have hne : (errorFrom e n.1 (r.reply (slot n.2))).errList ≠ [] := wanted_error hw
  rw [lastly,other_before hf.spread hp hn hst hsu,gathered_other hf.spread hn (by rw [hw]; nofun),
    wantedOwn,hw,toReplyOwn,if_neg (wantedIdx_ne hn hst),if_neg (wantedIdx_ne hn hsu)]
  simp only [if_neg hne]
  exact errorFrom_clean (hf.noValue n hn) _ _

theorem lastly_att (hf : Fresh names slot r) (hp : BothInPlace dev names slot) (hn : n ∈ names.zipIdx)
    {j : Nat} {b c : Bool} (hw : wanted dev n.1 = .ok (.att j b c)) {att : Attribute α}
    (ha : dev.attrs[j]? = some att) :
    lastly dev idl names slot n r = attAnswer dev idl n.1 att (readAlone att b c (r.held j)) := by
  have hst : wanted dev n.1 ≠ .ok .state := by rw [hw]; nofun
  have hsu : wanted dev n.1 ≠ .ok .status := by rw [hw]; nofun
  obtain ⟨hel,hheld⟩ := Prod.ext_iff.mp (gathered_att hf.spread hf.distinct hn hw ha r)
  simp only [] at hel hheld
  rw [lastly,other_before hf.spread hp hn hst hsu,toReplyOwn,if_neg (wantedIdx_ne hn hst),
    if_neg (wantedIdx_ne hn hsu),hel]
  simp only [(wanted_att hw).1,ha,beforeReply_held,hheld]
  unfold attAnswer
  cases hr : (readAlone att b c (r.held j)).1 with
  | none =>
    simp only [hf.noErrors n hn,if_true,Option.getD_none]
    exact attToReply_clean (hf.noValue n hn) (hf.noErrors n hn) _ _ _
  | some e =>
    simp only [Option.getD_some]
    by_cases he : e = []
    · subst he
      have hne : (errorFrom [] n.1 (r.reply (slot n.2))).errList = [] := rfl
      have hv : (errorFrom [] n.1 (r.reply (slot n.2))).value = none := hf.noValue n hn
      rw [if_pos hne,if_pos rfl]
      exact attToReply_clean hv hne _ _ _
    · have hne : (errorFrom e n.1 (r.reply (slot n.2))).errList ≠ [] := he
      rw [if_neg hne,if_neg he]
      exact errorFrom_clean (hf.noValue n hn) _ _

theorem lastly_eq (hf : Fresh names slot r) (hp : BothInPlace dev names slot) (hn : n ∈ names.zipIdx) :
    lastly dev idl names slot n r = deviceAnswer dev idl r.held n.1 := by
  unfold deviceAnswer
  obtain ⟨-,hw⟩ | ⟨-,hw⟩ | ⟨e,-,hw⟩ | ⟨ind,b,c,att,-,ha,hw⟩ := wanted_cases dev n.1
  · rw [lastly_state hf hp hn hw,hw]
  · rw [lastly_status hf hp hn hw,hw]
  · rw [lastly_error hf hp hn hw,hw]
  · rw [lastly_att hf hp hn hw ha,hw]
    simp only [ha]

theorem beforeReply_outside (hp : BothInPlace dev names slot) {i : Nat}
    (hi : ∀ n ∈ names.zipIdx, i ≠ slot n.2) : (beforeReply dev names slot r).reply i = r.reply i := by
  rw [beforeReply,computed_elsewhere hp.status (fun m hm _ => hi m hm),
    computed_elsewhere hp.state (fun m hm _ => hi m hm),gathered_outside hi]

/-- The device answers every name as if it were alone, and touches no other element. -/
theorem device_answers {secondTry : Bool} {idx : List Nat} (hh : hookErrors dev names.zipIdx = none)
    (hf : Fresh names (index secondTry idx) r) (hp : BothInPlace dev names (index secondTry idx)) :
    ∃ r', readAttributesNoExcept dev idl names secondTry idx r = .ok r' ∧
      (∀ n ∈ names.zipIdx, r'.reply (index secondTry idx n.2) = deviceAnswer dev idl r.held n.1) ∧
      ∀ i, (∀ n ∈ names.zipIdx, i ≠ index secondTry idx n.2) → r'.reply i = r.reply i := by
  have herr : ∀ n ∈ names.zipIdx, ∀ e, wanted dev n.1 = .error e →
      ((beforeReply dev names (index secondTry idx) r).reply (index secondTry idx n.2)).errList ≠ [] := by
    intro n hn e hw
    rw [other_before hf.spread hp hn (by rw [hw]; nofun) (by rw [hw]; nofun),
      gathered_other hf.spread hn (by rw [hw]; nofun),wantedOwn,hw]
    exact wanted_error hw
  obtain ⟨r',hr⟩ := to_reply_returns idl hf.spread hf.distinct herr
  rw [noExcept_eq hh]
  refine ⟨r',hr,fun n hn => ?_,fun i hi => ?_⟩
  · rw [to_reply_loop hf.spread hn hr]
    exact lastly_eq hf hp hn
  · rw [to_reply_outside hi hr,beforeReply_outside hp hi]

variable (names) in
/-- The errors of the state or the status are at the place of its name, or nowhere. -/
theorem computed_cases (res : Except DevErrorList β) (x : Wanted) (r : Run α) (i : Nat) :
    (computed res (wantedIdx dev x names.zipIdx) (fun i => names.getD i "") r).reply i = r.reply i ∨
      ∃ m ∈ names.zipIdx, m.2 = i ∧ wanted dev m.1 = .ok x ∧ ∃ e,
        (computed res (wantedIdx dev x names.zipIdx) (fun i => names.getD i "") r).reply i =
          errorFrom e m.1 (r.reply i) := by
  by_cases hi : wantedIdx dev x names.zipIdx = some i
  · obtain ⟨m,hm,hmi,hw⟩ := wantedIdx_some hi
    cases res with
    | ok y => exact .inl (computed_other (fun e he => (by cases he)) _ _)
    | error e =>
      refine .inr ⟨m,hm,hmi,hw,e,?_⟩
      rw [hi,computed_own,← hmi,name_at hm]
  · exact .inl (computed_other (fun _ _ => hi) _ _)

theorem state_strayed (hf : Fresh names slot r) (hn : n ∈ names.zipIdx)
    (hw : wanted dev n.1 = .ok .state) (hne : slot n.2 ≠ n.2) :
    ((beforeReply dev names slot r).reply (slot n.2)).errList = [] ∨
      ((beforeReply dev names slot r).reply (slot n.2)).name ≠ n.1 := by
  have hg : (gathered dev names slot r).reply (slot n.2) = r.reply (slot n.2) := by
    rw [gathered_other hf.spread hn (by rw [hw]; nofun),wantedOwn,hw]
  have h1 : (computed dev.devState (wantedIdx dev .state names.zipIdx) (fun i => names.getD i "")
      (gathered dev names slot r)).reply (slot n.2) = r.reply (slot n.2) := by
    rw [stateIdx_eq hf.distinct hn hw,computed_other,hg]
    intro e _ he
    exact hne (Option.some.inj he).symm
  unfold beforeReply
  rcases computed_cases names dev.devStatus .status (computed dev.devState
    (wantedIdx dev .state names.zipIdx) (fun i => names.getD i "") (gathered dev names slot r)) (slot n.2)
    with h2 | ⟨m,-,-,hmw,e,h2⟩
  · rw [h2,h1]
    exact .inl (hf.noErrors n hn)
  · rw [h2]
    refine .inr (fun he => ?_)
    have hmn : m.1 = n.1 := he
    rw [hmn,hw] at hmw
    cases hmw

theorem status_strayed (hf : Fresh names slot r) (hn : n ∈ names.zipIdx)
    (hw : wanted dev n.1 = .ok .status) (hne : slot n.2 ≠ n.2) :
    ((beforeReply dev names slot r).reply (slot n.2)).errList = [] ∨
      ((beforeReply dev names slot r).reply (slot n.2)).name ≠ n.1 := by
  have hg : (gathered dev names slot r).reply (slot n.2) = r.reply (slot n.2) := by
    rw [gathered_other hf.spread hn (by rw [hw]; nofun),wantedOwn,hw]
  unfold beforeReply
  rw [statusIdx_eq hf.distinct hn hw,computed_other (fun e _ he => hne (Option.some.inj he).symm)]
  rcases computed_cases names dev.devState .state (gathered dev names slot r) (slot n.2)
    with h2 | ⟨m,-,-,hmw,e,h2⟩
  · rw [h2,hg]
    exact .inl (hf.noErrors n hn)
  · rw [h2]
    refine .inr (fun he => ?_)
    have hmn : m.1 = n.1 := he
    rw [hmn,hw] at hmw
    cases hmw

/-- Answered right, the state and the status were at their own place. -/
theorem in_place_of_answers (hf : Fresh names slot r)
    (hr : names.zipIdx.foldlM (toReplyStep dev idl slot (wantedIdx dev .state names.zipIdx)
      (wantedIdx dev .status names.zipIdx)) (beforeReply dev names slot r) = .ok r')
    (ha : ∀ n ∈ names.zipIdx, r'.reply (slot n.2) = deviceAnswer dev idl r.held n.1) :
    BothInPlace dev names slot := by
  constructor
  · intro n hn hw e he
    have h := ha n hn
    rw [to_reply_loop hf.spread hn hr,toReplyOwn,if_pos (stateIdx_eq hf.distinct hn hw),deviceAnswer,hw,he]
      at h
    simp only [computedAnswer] at h
    split at h
    next =>
      have hq := congrArg AttributeValue.quality h
      cases hq
    next herr =>
      refine ⟨?_,?_⟩
      · rw [h] at herr
        exact herr
      · by_contra hne
        rcases state_strayed hf hn hw hne with h0 | h0
        · exact herr h0
        · exact h0 (congrArg AttributeValue.name h)
  · intro n hn hw e he
    have h := ha n hn
    rw [to_reply_loop hf.spread hn hr,toReplyOwn,if_neg (wantedIdx_ne hn (by rw [hw]; nofun)),
      if_pos (statusIdx_eq hf.distinct hn hw),deviceAnswer,hw,he] at h
    simp only [computedAnswer] at h
    split at h
    next =>
      have hq := congrArg AttributeValue.quality h
      cases hq
    next herr =>
      refine ⟨?_,?_⟩
      · rw [h] at herr
        exact herr
      · by_contra hne
        rcases status_strayed hf hn hw hne with h0 | h0
        · exact herr h0
        · exact h0 (congrArg AttributeValue.name h)

end Device

end CppTango.Device.Read
