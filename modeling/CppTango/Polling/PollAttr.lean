import CppTango.Lib.Lists
import CppTango.Polling.AttrRoundTrip
import CppTango.Polling.Thread
import Mathlib.Data.List.Nodup

namespace CppTango.Polling.PollAttr

open CppTango.Lib AttrRoundTrip

section Objects

structure PollObj where
  type : PollObjType
  name : String
  ring : PollRing
  neededTime : Nat

def PollObj.Is (type : PollObjType) (name : String) (o : PollObj) : Prop := o.type = type ∧ o.name = name

instance (type : PollObjType) (name : String) (o : PollObj) : Decidable (o.Is type name) :=
  inferInstanceAs (Decidable (_ ∧ _))

/-- `insert_data` or `insert_except` -/
def PollObj.insert (idl5 : Bool) (needed : Nat) (r : AttrRecord) (o : PollObj) : PollObj :=
  {o with ring := o.ring.store (insertRecord idl5 r), neededTime := needed}

/-- The place of an object in the list of the device. -/
def place (type : PollObjType) (objs : List PollObj) (name : String) : Option Nat :=
  objs.findIdx? (fun o => decide (o.Is type name))

def getPolledObjByTypeName (type : PollObjType) (objs : List PollObj) (name : String) :
    Except DevErrorList Nat :=
  match place type objs name with
  | some ite => .ok ite
  | none => .error [⟨"API_PollObjNotFound",.err,name ++ " not found in list of polled object",
      "DeviceImpl::get_polled_obj_by_type_name"⟩]

end Objects

section Poll

/-- What the members of the attribute value list of a group become: the data are handed over, -/
def robbData : AttrValUnion → AttrValUnion
  | .seq s => .seq s
  | .devStateAtt s => .devStateAtt s
  | .unionNoData => .unionNoData

/-- and the rest is copied. -/
def regrouped (old : AttributeValue) : AttributeValue where
  value := robbData old.value
  quality := old.quality
  time := old.time
  rDim := old.rDim
  wDim := old.wDim
  errList := old.errList
  name := old.name

/-- As many values as names were asked for. -/
structure AttributeValueList (n : Nat) where
  values : List AttributeValue
  length_eq : values.length = n

variable {n : Nat}

/-- `save_except`, and `map_except` of a group; a single attribute in error is as if the read had failed. -/
def saveExcept : Except DevErrorList (AttributeValueList n) → Option DevErrorList
  | .error e => some e
  | .ok argout =>
    if n = 1 then (argout.values.head?.map AttributeValue.errList).filter (fun e => e ≠ []) else none

def mapExcept (ctr : Nat) : Except DevErrorList (AttributeValueList n) → Option DevErrorList
  | .error _ => none
  | .ok argout =>
    if n = 1 then none else (argout.values[ctr]?.map AttributeValue.errList).filter (fun e => e ≠ [])

variable (read : Except DevErrorList (AttributeValueList n)) (before : Nat)

/-- What is inserted for the attribute at an index. -/
def inserted (ctr : Nat) : Option AttrRecord :=
  match saveExcept read with
  | some e => some (.failed e before)
  | none =>
    match read with
    | .error _ => none
    | .ok argout =>
      if n = 1 then argout.values.head?.map (fun v => .value v before)
      else
        match mapExcept ctr read with
        | some e => some (.failed e before)
        | none => argout.values[ctr]?.map (fun v => .value (regrouped v) before)

variable (idl5 : Bool) (needed : Nat) (type : PollObjType)

/-- The loop that stores, with the insertions it makes; an object that is not found leaves it. -/
def store : List (String × Nat) → List PollObj → List (Nat × AttrRecord) × List PollObj
  | [],objs => ([],objs)
  | (name,ctr)::rest,objs =>
    match getPolledObjByTypeName type objs name,inserted read before ctr with
    | .ok ite,some r =>
      let (made,objs) := store rest (objs.modify ite (PollObj.insert idl5 needed r))
      ((ite,r) :: made,objs)
    | _,_ => ([],objs)

/-- The loop over the events before: it needs every attribute, and an event may throw. -/
def events (known : String → Bool) (push : Nat → Option DevErrorList) : List (String × Nat) → Option DevErrorList
  | [] => none
  | (name,ctr)::rest =>
    if known name = false then
      some [⟨"API_AttrNotFound",.err,name ++ " attribute not found","MultiAttribute::get_attr_by_name"⟩]
    else
      match push ctr with
      | some e => some e
      | none => events known push rest

def pollAttr (known : String → Bool) (push : Nat → Option DevErrorList) (names : List String)
    (objs : List PollObj) : Except DevErrorList (List (Nat × AttrRecord)) × List PollObj :=
  match events known push names.zipIdx with
  | some e => (.error e,objs)
  | none =>
    let (made,objs) := store read before idl5 needed type names.zipIdx objs
    (.ok made,objs)

end Poll

section Spec
variable {n : Nat}

/-- The record of an attribute: its error, or that of the whole read, or its own value. -/
def own (read : Except DevErrorList (AttributeValueList n)) (before ctr : Nat) : Option AttrRecord :=
  match read with
  | .error e => some (.failed e before)
  | .ok argout => argout.values[ctr]?.map (fun v =>
      if v.errList ≠ [] then .failed v.errList before else .value v before)

theorem regrouped_eq (v : AttributeValue) : regrouped v = v := by
  unfold regrouped
  cases v with
  | mk name value _ _ _ _ _ => cases value <;> rfl

/-- A single attribute and a group come to the same. -/
theorem inserted_own (read : Except DevErrorList (AttributeValueList n)) {before ctr : Nat} (h : ctr < n) :
    inserted read before ctr = own read before ctr := by
  cases read with
  | error e => rfl
  | ok argout =>
    obtain ⟨values,hlen⟩ := argout
    unfold inserted own saveExcept mapExcept
    by_cases hn : n = 1
    · have hctr : ctr = 0 := by omega
      subst hctr
      match values,hlen with
      | [],hlen => exact absurd hlen (by simp [hn])
      | v :: _,_ =>
        simp only [hn,if_true,List.head?_cons,Option.map_some,List.getElem?_cons_zero]
        by_cases he : v.errList = []
        · simp [he,Option.filter]
        · simp [he,Option.filter]
    · obtain ⟨v,hval⟩ : ∃ v, values[ctr]? = some v := ⟨_,List.getElem?_eq_getElem (hlen.symm ▸ h)⟩
      simp only [hn,if_false,hval,Option.map_some]
      by_cases he : v.errList = []
      · simp [he,Option.filter,regrouped_eq]
      · simp [he,Option.filter]

variable {type : PollObjType} {idl5 : Bool} {needed : Nat} {before : Nat}

/-- An insertion moves no object of the list. -/
theorem place_insert (objs : List PollObj) (ite : Nat) (r : AttrRecord) (name : String) :
    place type (objs.modify ite (PollObj.insert idl5 needed r)) name = place type objs name := by
  unfold place
  induction objs generalizing ite with
  | nil => simp
  | cons o objs ih =>
    cases ite with
    | zero =>
      rw [List.modify_zero_cons,List.findIdx?_cons,List.findIdx?_cons]
      rfl
    | succ ite => rw [List.modify_succ_cons,List.findIdx?_cons,List.findIdx?_cons,ih]

/-- The objects after some insertions. -/
def applied (idl5 : Bool) (needed : Nat) (made : List (Nat × AttrRecord)) (objs : List PollObj) : List PollObj :=
  made.foldl (fun objs m => objs.modify m.1 (PollObj.insert idl5 needed m.2)) objs

theorem own_some (read : Except DevErrorList (AttributeValueList n)) (before : Nat) {ctr : Nat} (h : ctr < n) :
    ∃ r, own read before ctr = some r := by
  cases read with
  | error e => exact ⟨_,rfl⟩
  | ok argout =>
    have hlt : ctr < argout.values.length := argout.length_eq.symm ▸ h
    exact Option.isSome_iff_exists.mp (by simp [own,hlt])

/-- The loop stores the own record of each attribute, up to the first that is not polled any more. -/
theorem store_made (idl5 : Bool) (needed : Nat) (type : PollObjType) (before : Nat)
    (read : Except DevErrorList (AttributeValueList n)) (l : List (String × Nat)) (hl : ∀ x ∈ l, x.2 < n) (objs : List PollObj) :
    (store read before idl5 needed type l objs).1.map (fun m => (some m.1,some m.2)) =
        (l.takeWhile (fun x => (place type objs x.1).isSome)).map
          (fun x => (place type objs x.1,own read before x.2)) ∧
      (store read before idl5 needed type l objs).2 =
        applied idl5 needed (store read before idl5 needed type l objs).1 objs := by
  induction l generalizing objs with
  | nil => exact ⟨rfl,rfl⟩
  | cons x l ih =>
    obtain ⟨name,ctr⟩ := x
    have hctr := hl _ List.mem_cons_self
    obtain ⟨r,hr⟩ := own_some read before hctr
    cases hp : place type objs name with
    | none => simp [store,getPolledObjByTypeName,hp,applied]
    | some ite =>
      obtain ⟨hmade,hobjs⟩ := ih (fun x hx => hl x (List.mem_cons_of_mem _ hx))
        (objs.modify ite (PollObj.insert idl5 needed r))
      simp only [place_insert] at hmade
      simp only [store,getPolledObjByTypeName,hp,inserted_own read hctr,hr,List.map_cons,List.takeWhile_cons,
        Option.isSome_some,if_true,hmade,true_and]
      exact hobjs

/-- Each attribute still polled gets its own record once, and no other object gets any. -/
def Fed (type : PollObjType) (names : List String) (read : Except DevErrorList (AttributeValueList names.length))
    (before : Nat) (objs : List PollObj) (made : List (Nat × AttrRecord)) : Prop :=
  ∀ j, (made.filter (fun m => m.1 = j)).map (fun m => some m.2) =
    ((names.zipIdx.find? (fun x => place type objs x.1 = some j)).map (fun x => own read before x.2)).toList

/-- The records a poll inserts: none when it fails before its loop. -/
def insertions : Except DevErrorList (List (Nat × AttrRecord)) → List (Nat × AttrRecord)
  | .ok made => made
  | .error _ => []

def polled (type : PollObjType) (objs : List PollObj) (name : String) : Bool := (place type objs name).isSome

theorem place_inj {objs : List PollObj} {a b : String} {j : Nat} (ha : place type objs a = some j)
    (hb : place type objs b = some j) : a = b := by
  obtain ⟨hj,hja,-⟩ := List.findIdx?_eq_some_iff_getElem.mp ha
  obtain ⟨hj',hjb,-⟩ := List.findIdx?_eq_some_iff_getElem.mp hb
  exact (of_decide_eq_true hja).2.symm.trans (of_decide_eq_true hjb).2

/-- No object is met twice and none is missed: the names that are reached differ, and all the polled ones are
among them. -/
theorem reached_iff {objs : List PollObj} {names reached : List String}
    (hreached : ∀ a ∈ reached, polled type objs a = true) :
    (∀ j, (reached.filter (fun a => place type objs a = some j)).length ≤ 1 ∧
        ((∃ a ∈ names, place type objs a = some j) → ∃ a ∈ reached, place type objs a = some j)) ↔
      reached.Nodup ∧ ∀ a ∈ names, polled type objs a = true → a ∈ reached := by
  constructor
  · intro h
    refine ⟨List.nodup_iff_count_le_one.mpr (fun a => ?_),fun a ha hp => ?_⟩
    · by_cases ha : a ∈ reached
      · obtain ⟨j,hj⟩ := Option.isSome_iff_exists.mp (hreached a ha)
        refine Nat.le_trans ?_ (h j).1
        rw [List.count,← List.countP_eq_length_filter]
        exact List.countP_mono_left (fun b _ hb => by simpa [eq_of_beq hb] using hj)
      · rw [List.count_eq_zero_of_not_mem ha]
        exact Nat.zero_le 1
    · obtain ⟨j,hj⟩ := Option.isSome_iff_exists.mp hp
      obtain ⟨b,hb,hbj⟩ := (h j).2 ⟨a,ha,hj⟩
      exact place_inj hbj hj ▸ hb
  · rintro ⟨hnd,hall⟩ j
    refine ⟨?_,fun ⟨a,ha,hj⟩ => ⟨a,hall a ha (Option.isSome_iff_exists.mpr ⟨j,hj⟩),hj⟩⟩
    have hsame : ∀ a ∈ reached.filter (fun a => place type objs a = some j), place type objs a = some j :=
      fun a ha => of_decide_eq_true (List.mem_filter.mp ha).2
    have hfnd := hnd.filter (fun a => decide (place type objs a = some j))
    match hf : reached.filter (fun a => place type objs a = some j) with
    | [] => exact Nat.zero_le 1
    | [_] => exact Nat.le_refl 1
    | a :: b :: rest =>
      rw [hf] at hsame hfnd
      have hab := place_inj (hsame a List.mem_cons_self) (hsame b (List.mem_cons_of_mem a List.mem_cons_self))
      exact absurd (hab ▸ List.mem_cons_self) (List.nodup_cons.mp hfnd).1

theorem takeWhile_zipIdx (p : String → Bool) (names : List String) :
    (names.zipIdx.takeWhile (fun x => p x.1)).map Prod.fst = names.takeWhile p := by
  have h := @List.takeWhile_map _ _ Prod.fst p names.zipIdx
  rw [List.zipIdx_map_fst] at h
  exact h.symm

theorem fed_iff {names : List String} {read : Except DevErrorList (AttributeValueList names.length)}
    {objs : List PollObj} :
    Fed type names read before objs (store read before idl5 needed type names.zipIdx objs).1 ↔
      (names.takeWhile (polled type objs)).Nodup ∧
        ∀ a ∈ names, polled type objs a = true → a ∈ names.takeWhile (polled type objs) := by
  have hmade := (store_made idl5 needed type before read names.zipIdx
    (fun x hx => by simpa using List.snd_lt_of_mem_zipIdx hx) objs).1
  rw [← reached_iff (fun a ha => List.mem_takeWhile_imp ha)]
  refine forall_congr' (fun j => ?_)
  have hj := congrArg (fun l => (l.filter (fun m => m.1 = some j)).map Prod.snd) hmade
  simp only [List.filter_map,List.map_map,Function.comp_def,Option.some.injEq] at hj
  have hpq : ∀ x ∈ names.zipIdx, decide (place type objs x.1 = some j) = true →
      (place type objs x.1).isSome = true := fun x _ hx => by rw [of_decide_eq_true hx]; rfl
  rw [hj]
  refine (map_filter_takeWhile _ hpq).trans ?_
  rw [← takeWhile_zipIdx,List.filter_map,List.length_map]
  refine and_congr_right (fun _ => imp_congr ?_ ?_)
  · have hmem : ∀ a, a ∈ names ↔ ∃ x ∈ names.zipIdx, x.1 = a := fun a => by
      rw [← List.mem_map,List.zipIdx_map_fst]
    simp [hmem]
  · simp [polled]

/-- No insertion feeds every ring exactly when there is none to feed. -/
theorem nothing_fed_iff {names : List String} {read : Except DevErrorList (AttributeValueList names.length)}
    {objs : List PollObj} :
    Fed type names read before objs [] ↔ ∀ a ∈ names, polled type objs a = false := by
  constructor
  · intro h a ha
    refine Bool.eq_false_iff.mpr (fun hp => ?_)
    obtain ⟨j,hj⟩ := Option.isSome_iff_exists.mp hp
    have hnone := (h j).symm
    simp only [List.filter_nil,List.map_nil,Option.toList_eq_nil_iff,Option.map_eq_none_iff,List.find?_eq_none,
      decide_eq_true_eq] at hnone
    rw [← List.zipIdx_map_fst 0 names] at ha
    obtain ⟨x,hx,rfl⟩ := List.mem_map.mp ha
    exact hnone x hx hj
  · intro h j
    have hnone : names.zipIdx.find? (fun x => place type objs x.1 = some j) = none := by
      refine List.find?_eq_none.mpr (fun x hx hj => ?_)
      have hx' : x.1 ∈ names := List.zipIdx_map_fst 0 names ▸ List.mem_map_of_mem hx
      have hp : polled type objs x.1 = true := Option.isSome_iff_exists.mpr ⟨j,of_decide_eq_true hj⟩
      exact absurd (hp.symm.trans (h x.1 hx')) (by decide)
    rw [hnone]
    rfl

theorem reached_none {objs : List PollObj} {names : List String} (h : ∀ a ∈ names, polled type objs a = false) :
    names.takeWhile (polled type objs) = [] := by
  cases names with
  | nil => rfl
  | cons a _ => exact List.takeWhile_cons_of_neg (by simp [h a List.mem_cons_self])

/-- Whether every event before the insertions is pushed: each attribute is known and none throws. -/
def Quiet (known : String → Bool) (push : Nat → Option DevErrorList) (l : List (String × Nat)) : Prop :=
  ∀ x ∈ l, known x.1 = true ∧ push x.2 = none

theorem events_none_iff {known : String → Bool} {push : Nat → Option DevErrorList} {l : List (String × Nat)} :
    events known push l = none ↔ Quiet known push l := by
  induction l with
  | nil => simp [events,Quiet]
  | cons x l ih =>
    obtain ⟨name,ctr⟩ := x
    have hcons : Quiet known push ((name,ctr) :: l) ↔ (known name = true ∧ push ctr = none) ∧ Quiet known push l :=
      List.forall_mem_cons
    rw [hcons,← ih]
    cases hk : known name <;> cases hp : push ctr <;> simp [events,hk,hp]

/-- The rings after a poll: each attribute still polled has got its own record once, and nothing else has changed. -/
structure FeedsRings (type : PollObjType) (names : List String)
    (read : Except DevErrorList (AttributeValueList names.length)) (before : Nat) (idl5 : Bool) (needed : Nat)
    (objs : List PollObj) (r : Except DevErrorList (List (Nat × AttrRecord)) × List PollObj) : Prop where
  fed : Fed type names read before objs (insertions r.1)
  rings : r.2 = applied idl5 needed (insertions r.1) objs

theorem poll_attr_feeds_iff (known : String → Bool) (push : Nat → Option DevErrorList) (names : List String)
    (read : Except DevErrorList (AttributeValueList names.length)) (before : Nat) (idl5 : Bool) (needed : Nat)
    (type : PollObjType) (objs : List PollObj) :
    FeedsRings type names read before idl5 needed objs
        (pollAttr read before idl5 needed type known push names objs) ↔
      (Quiet known push names.zipIdx ∧ (names.takeWhile (polled type objs)).Nodup ∧
          ∀ a ∈ names, polled type objs a = true → a ∈ names.takeWhile (polled type objs)) ∨
        ∀ a ∈ names, polled type objs a = false := by
  unfold pollAttr
  cases he : events known push names.zipIdx with
  | none =>
    have hquiet := events_none_iff.mp he
    have hrings := (store_made idl5 needed type before read names.zipIdx
      (fun x hx => by simpa using List.snd_lt_of_mem_zipIdx hx) objs).2
    constructor
    · exact fun h => Or.inl ⟨hquiet,fed_iff.mp h.fed⟩
    · rintro (⟨-,h⟩ | h)
      · exact ⟨fed_iff.mpr h,hrings⟩
      · refine ⟨fed_iff.mpr ?_,hrings⟩
        rw [reached_none h]
        exact ⟨List.nodup_nil,fun a ha hp => absurd (hp.symm.trans (h a ha)) (by decide)⟩
  | some e =>
    have hloud : ¬ Quiet known push names.zipIdx := fun h => by rw [events_none_iff.mpr h] at he; cases he
    constructor
    · exact fun h => Or.inr (nothing_fed_iff.mp h.fed)
    · rintro (⟨h,-⟩ | h)
      · exact absurd h hloud
      · exact ⟨nothing_fed_iff.mpr h,rfl⟩

/-- Of two attributes only the second is still polled, and the device was busy. -/
def ringLeft : PollObj := ⟨.pollAttr,"b",pollRing 1 Nat.zero_lt_one,0⟩

def busy : Except DevErrorList (AttributeValueList 2) :=
  .error [⟨"API_CommandTimedOut",.err,"Not able to acquire serialization (dev, class or process) monitor",
    "TangoMonitor::get_monitor"⟩]

theorem polled_after_forgotten :
    ¬ FeedsRings .pollAttr ["a","b"] busy 0 true 0 [ringLeft]
      (pollAttr busy 0 true 0 .pollAttr (fun _ => true) (fun _ => none) ["a","b"] [ringLeft]) := by
  rintro ⟨hfed,-⟩
  exact absurd (hfed 0) (by decide)

end Spec

end CppTango.Polling.PollAttr
