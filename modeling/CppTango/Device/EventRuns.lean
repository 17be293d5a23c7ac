import CppTango.Device.EventPeriods

namespace CppTango.Device.Conf

open CppTango.Lib StrProps

variable {D : Doubles} {attr : AttrDesc} {s : EventState D} {db db' : List AttrProperty}

/-- Two pairs of thresholds are the same integers. -/
def SameThresholds (x y : D.Dbl × D.Dbl) : Prop := ∃ b, Holds x b ∧ Holds y b

/-- The event criteria in memory are those of a start. -/
structure EventMirrored (attr : AttrDesc) (s : EventState D) : Prop where
  change : ∀ p, SameThresholds (s.change p) (initChange D attr s.db p)
  period : ∀ p, s.period p = initPeriod attr s.db p

/-- A text of a request is within the values looked at. -/
def EventConf.Valid : EventConf → Prop
  | .change _ conf => TextOk conf
  | .period _ conf => isKeyword conf ∨ ∃ k, numeral conf = some k

section Others

theorem initChange_congr {p : ChangeProp} (h : startProp attr p.name db = startProp attr p.name db') :
    initChange D attr db p = initChange D attr db' p := by
  unfold initChange
  rw [h]

theorem initPeriod_congr {p : PeriodProp} (h : startProp attr p.name db = startProp attr p.name db') :
    initPeriod attr db p = initPeriod attr db' p := by
  unfold initPeriod
  rw [h]

theorem changeName_injective {p q : ChangeProp} (h : p.name = q.name) : p = q := by
  cases p <;> cases q <;> first | rfl | exact absurd h (by decide)

theorem periodName_injective {p q : PeriodProp} (h : p.name = q.name) : p = q := by
  cases p <;> cases q <;> first | rfl | exact absurd h (by decide)

theorem names_apart (p : ChangeProp) (q : PeriodProp) : p.name ≠ q.name := by
  cases p <;> cases q <;> decide

/-- The work of one property leaves the others alone. -/
theorem startProp_other {name other : String} {work : List (AttPropDb D)} (h : name ≠ other)
    (hw : work = [] ∨ ∃ dba, work = [⟨other,dba⟩]) :
    startProp attr name (updAttDatabase work db) = startProp attr name db := by
  rcases hw with rfl | ⟨dba,rfl⟩
  · rfl
  · rw [startProp_one,if_neg h]

end Others

section Steps

theorem mirrored_change {p : ChangeProp} {new : D.Dbl × D.Dbl} {work : List (AttPropDb D)}
    (hs : EventMirrored attr s) (hw : work = [] ∨ ∃ dba, work = [⟨p.name,dba⟩])
    (h : SameThresholds new (initChange D attr (updAttDatabase work s.db) p)) :
    EventMirrored attr ⟨Function.update s.change p new,s.period,updAttDatabase work s.db⟩ := by
  refine ⟨fun q => ?_,fun q => ?_⟩
  · by_cases hq : q = p
    · subst hq
      dsimp only
      rw [Function.update_self]
      exact h
    · dsimp only
      rw [Function.update_of_ne hq,
        initChange_congr (startProp_other (fun he => hq (changeName_injective he)) hw)]
      exact hs.change q
  · dsimp only
    rw [initPeriod_congr (startProp_other (names_apart p q).symm hw)]
    exact hs.period q

theorem mirrored_period {p : PeriodProp} {new : Int32} {work : List (AttPropDb D)}
    (hs : EventMirrored attr s) (hw : work = [] ∨ ∃ dba, work = [⟨p.name,dba⟩])
    (h : new = initPeriod attr (updAttDatabase work s.db) p) :
    EventMirrored attr ⟨s.change,Function.update s.period p new,updAttDatabase work s.db⟩ := by
  refine ⟨fun q => ?_,fun q => ?_⟩
  · dsimp only
    rw [initChange_congr (startProp_other (names_apart q p) hw)]
    exact hs.change q
  · by_cases hq : q = p
    · subst hq
      dsimp only
      rw [Function.update_self]
      exact h
    · dsimp only
      rw [Function.update_of_ne hq,
        initPeriod_congr (startProp_other (fun he => hq (periodName_injective he)) hw)]
      exact hs.period q

variable (hD : D.PrintsIntegers) (hnum : ¬ noNumber attr.dataType) (hst : ¬ isState attr.toAttr)
  (hd : EventDefaultsOk attr)
include hd

include hD hnum in
theorem changeProp_mirrored {p : ChangeProp} {conf : String} (hs : EventMirrored attr s) (hc : TextOk conf)
    (hk : KeepsEvent attr s (.change p conf)) :
    ∃ s', changeEvent attr s (.change p conf) = some s' ∧ EventMirrored attr s' := by
  obtain ⟨new,cls,usr,he,hnew,hcls,husr⟩ := setOneEventProp_spec (p := p) hD hnum hd hc (s.change p)
  obtain ⟨b,hold,hinit⟩ := hs.change p
  have hsh := askedBounds_shaped (p := p) hd hc
  have h1 := D.eq_iff _ _ _ _ hold.1 hnew.1
  have h2 := D.eq_iff _ _ _ _ hold.2 hnew.2
  unfold changeEvent
  dsimp only
  rw [he]
  refine ⟨_,rfl,?_⟩
  by_cases hch : (D.eq (s.change p).1 new.1 && D.eq (s.change p).2 new.2) = true
  · rw [if_pos hch]
    obtain ⟨hc1,hc2⟩ := Bool.and_eq_true_iff.mp hch
    have hb : b = askedBounds attr p conf := Prod.ext (h1.mp hc1) (h2.mp hc2)
    exact mirrored_change hs (.inl rfl) ⟨b,hb ▸ hnew,hinit⟩
  · rw [if_neg hch]
    refine mirrored_change hs (.inr ⟨_,rfl⟩) ⟨_,hnew,changeDb_read hD hnum hd hsh hnew hcls husr ?_⟩
    refine hk.resolve_left (fun hun => hch (Bool.and_eq_true_iff.mpr ⟨?_,?_⟩))
    · have hi := D.isInt_ofInt _ (Nat.le_trans hsh.abs.1 (by decide))
      exact h1.mpr ((D.eq_iff _ _ _ _ hold.1 hi).mp hun.1)
    · have hi := D.isInt_ofInt _ (Nat.le_trans hsh.abs.2 (by decide))
      exact h2.mpr ((D.eq_iff _ _ _ _ hold.2 hi).mp hun.2)

include hst in
theorem changePeriod_mirrored {p : PeriodProp} {conf : String} (hs : EventMirrored attr s)
    (hc : isKeyword conf ∨ ∃ k, numeral conf = some k) (hk : KeepsEvent attr s (.period p conf)) :
    ∃ s', changeEvent attr s (.period p conf) = some s' ∧ EventMirrored attr s' := by
  obtain ⟨n,ha,hn⟩ := hk
  have hval := periodVal_spec (D := D) hst ha hn
  have hleft : PeriodLeft (D := D) attr p n (periodDb D attr p conf) := by
    rcases hc with hk | ⟨k,hk⟩
    · exact periodDb_keyword hst hd hk ha hn
    · obtain rfl := Option.some.inj ((asked_number hk).symm.trans ha)
      exact periodDb_number hst hd hk hn
  obtain ⟨work,hwork,hread⟩ := hleft
  have hset : setOneEventPeriod D attr p conf (s.period p) =
      (Int32.ofInt n,.ok (if Int32.ofInt n = s.period p then [] else work)) := by
    unfold setOneEventPeriod
    rw [hval]
    dsimp only
    split
    next => rfl
    next => rw [hwork]
  unfold changeEvent
  dsimp only
  rw [hset]
  refine ⟨_,rfl,?_⟩
  split
  next h =>
    refine mirrored_period hs (.inl rfl) ?_
    rw [h]
    exact hs.period p
  next => exact mirrored_period hs (periodDb_short hwork) (hread s.db).symm

include hD hnum hst

/-- One property of a request. -/
theorem changeEvent_mirrored {c : EventConf} (hs : EventMirrored attr s) (hv : c.Valid)
    (hk : KeepsEvent attr s c) : EventMirrored attr (changeEventStep attr s c) := by
  have hstep : ∃ s', changeEvent attr s c = some s' ∧ EventMirrored attr s' := by
    cases c with
    | change p conf => exact changeProp_mirrored hD hnum hd hs hv hk
    | period p conf => exact changePeriod_mirrored hst hd hs hv hk
  obtain ⟨s',he,hm⟩ := hstep
  unfold changeEventStep
  rw [he]
  exact hm

end Steps

section Samples

/-- A short attribute with a class default of two thresholds. -/
def changeAttr : AttrDesc := { sampleAttr with classProperties := [⟨"rel_change","5,10"⟩] }

/-- The criteria of the defaults, and nothing in the database. -/
def changeState : EventState wholeNumbers where
  change p := if p = .relChange then ((-5 : Int),(10 : Int)) else (intMax,intMax)
  period p := p.default
  db := []

theorem wholeNumbers_print : wholeNumbers.PrintsIntegers := by
  refine ⟨?_,?_⟩
  · rintro x n rfl
    rfl
  · rintro x n rfl -
    exact numeral_intString x

theorem change_defaults : EventDefaultsOk changeAttr := by
  refine ⟨?_,?_⟩
  · intro p defaults hm d h
    rcases List.mem_cons.mp hm with rfl | hm
    · cases p with
      | relChange =>
        cases h
        refine ⟨.inr ⟨5,by decide,by decide⟩,?_⟩
        rintro _ ⟨⟩
        exact .inr ⟨10,by decide,by decide⟩
      | absChange | archiveRelChange | archiveAbsChange => cases h
    · obtain rfl := List.mem_singleton.mp hm
      cases h
  · intro p defaults hm d h
    rcases List.mem_cons.mp hm with rfl | hm
    · cases p <;> cases h
    · obtain rfl := List.mem_singleton.mp hm
      cases h

theorem change_mirrored : EventMirrored changeAttr changeState := by
  refine ⟨fun p => ?_,fun p => ?_⟩
  · cases p with
    | relChange => exact ⟨(-5,10),⟨rfl,rfl⟩,⟨rfl,rfl⟩⟩
    | absChange | archiveRelChange | archiveAbsChange => exact ⟨(intMax,intMax),⟨rfl,rfl⟩,⟨rfl,rfl⟩⟩
  · cases p <;> rfl

theorem numbers_valid {x y : String} {m n : Int} (hx : numeral x = some m) (hm : m.natAbs ≤ 2 ^ 31)
    (hy : numeral y = some n) (hn : n.natAbs ≤ 2 ^ 31) : TextOk (x ++ "," ++ y) :=
  textOk_join (numeral_no_comma hx) (.inr ⟨m,hx,hm⟩) (.inr ⟨n,hy,hn⟩)

end Samples

end CppTango.Device.Conf
