import CppTango.Device.EventStored

namespace CppTango.Device.Conf

open CppTango.Lib StrProps

variable {D : Doubles} {attr : AttrDesc} {conf text : String} {n : Int} {db : List AttrProperty}

section Periods
variable {p : PeriodProp}

theorem default_positive (p : PeriodProp) : 0 < p.default.toInt ∧ p.default.toInt ≤ intMax := by
  cases p <;> decide

theorem ofInt_default (p : PeriodProp) : Int32.ofInt p.default.toInt = p.default := Int32.ofInt_toInt _

theorem toInt_ofInt (h : 0 < n ∧ n ≤ intMax) : (Int32.ofInt n).toInt = n := by
  unfold intMax at h
  rw [Int32.toInt_ofInt_of_le] <;> omega

theorem denotes_period (h : numeral text = some n) (hn : 0 < n ∧ n ≤ intMax) : Denotes .devLong text n := by
  unfold intMax at hn
  exact ⟨h,⟨_,rfl,by dsimp only; omega,by dsimp only; omega⟩,by omega⟩

/-- A period at a start, from the text it finds. -/
theorem initPeriod_text (h : startProp attr p.name db = some text) (hn : Denotes .devLong text n) (hpos : 0 < n) :
    initPeriod attr db p = Int32.ofInt n := by
  obtain ⟨b,hb,hlo,hhi⟩ := hn.fits
  cases hb
  unfold initPeriod
  rw [h,Option.bind_some,readSignedEnd_numeral hn.numeral ⟨hlo,hhi⟩]
  exact if_pos hpos

theorem initPeriod_none (h : startProp attr p.name db = none) : initPeriod attr db p = p.default := by
  unfold initPeriod
  rw [h]
  rfl

theorem readNat_digits {ds : List Char} {m : Nat} (h : numeral.digits ds = some m) : readNat ds = some m := by
  unfold numeral.digits at h
  obtain ⟨⟨hne,hall⟩,hm⟩ := Option.ite_none_right_eq_some.mp h
  have ht : ds.takeWhile Char.isDigit = ds := List.takeWhile_eq_self_iff.mpr (List.all_eq_true.mp hall)
  unfold readNat
  rw [ht,if_neg hne]
  exact hm

theorem readSign_numeral (h : numeral text = some n) :
    ∃ neg m, readSign text.toList = some (neg,m) ∧ (if neg then -(m : Int) else m) = n := by
  have hdrop := dropWhile_numeral h
  unfold numeral at h
  split at h
  next ds heq =>
    obtain ⟨m,hm,rfl⟩ := Option.map_eq_some_iff.mp h
    unfold readSign
    rw [hdrop,heq]
    exact ⟨true,m,congrArg (Option.map (fun n => (true,n))) (readNat_digits hm),rfl⟩
  next ds heq =>
    obtain ⟨m,hm,rfl⟩ := Option.map_eq_some_iff.mp h
    unfold readSign
    rw [hdrop,heq]
    exact ⟨false,m,congrArg (Option.map (fun n => (false,n))) (readNat_digits hm),rfl⟩
  next h1 h2 =>
    obtain ⟨m,hm,rfl⟩ := Option.map_eq_some_iff.mp h
    refine ⟨false,m,?_,rfl⟩
    unfold readSign
    rw [hdrop]
    split
    next ds heq => exact absurd heq (h1 ds)
    next ds heq => exact absurd heq (h2 ds)
    next =>
      rw [readNat_digits hm]
      rfl

/-- A stream that goes on behind the number reads it as well. -/
theorem readSigned_denotes (h : Denotes .devLong text n) : readSigned 32 text.toList = some n := by
  obtain ⟨neg,m,hs,hv⟩ := readSign_numeral h.numeral
  obtain ⟨b,hb,hlo,hhi⟩ := h.fits
  cases hb
  unfold readSigned
  rw [hs,Option.bind_some]
  dsimp only
  rw [hv]
  exact if_pos ⟨hlo,hhi⟩

variable (hst : ¬ isState attr.toAttr)

include hst in
/-- The period a request sets. -/
theorem periodVal_spec (ha : askedPeriod attr p conf = some n) (hn : 0 < n ∧ n ≤ intMax) :
    periodVal D attr p conf = .ok (Int32.ofInt n) := by
  have hread : ∀ text, numeral text = some n → readPeriod D attr p text = .ok (Int32.ofInt n) := by
    intro text h
    have hden := denotes_period h hn
    unfold readPeriod
    rw [if_pos hden.read.1,D.cast_isInt _ _ _ hden.read.2 hden.fits]
  unfold periodVal AttrDesc.periodDefault
  unfold askedPeriod at ha
  rw [if_neg hst,if_neg hst]
  dsimp only at ha ⊢
  split
  next h =>
    rw [if_pos h] at ha
    cases ha
    rw [ofInt_default]
  next h =>
    rw [if_neg h] at ha
    split
    next h2 =>
      rw [if_pos h2] at ha
      split
      next hnone =>
        rw [hnone] at ha
        cases ha
        rw [ofInt_default]
      next d hsome =>
        rw [hsome] at ha
        exact hread d ha
    next h2 =>
      rw [if_neg h2] at ha
      split
      next h3 =>
        rw [if_pos h3] at ha
        split
        next hnone =>
          rw [hnone] at ha
          cases ha
          rw [ofInt_default]
        next d hsome =>
          rw [hsome] at ha
          exact hread d ha
      next h3 =>
        rw [if_neg h3] at ha
        exact hread conf ha

theorem keyword_library (hk : isKeyword conf) : p.isLibrary conf ↔ sameNoCase conf "Not specified" := by
  refine ⟨fun h => h.resolve_right (fun hs => ?_),.inl⟩
  have hden := denotes_period (numeral_intString p.default.toInt) (default_positive p)
  rcases hk with h | rfl | h
  · exact hden.not_sameNoCase (by decide) (hs.symm.trans h)
  · exact absurd (List.map_eq_nil_iff.mp (hs.symm.trans rfl)) (numeral_chars hden.numeral).1
  · exact hden.not_sameNoCase (by decide) (hs.symm.trans h)

/-- A number asks for itself. -/
theorem asked_number (h : numeral conf = some n) : askedPeriod attr p conf = some n := by
  have hk := numeral_not_keyword h
  unfold askedPeriod
  dsimp only
  split
  next hl =>
    have hs := hl.resolve_left (fun h => hk (.inl h))
    have he : conf = intString p.default.toInt := by
      unfold sameNoCase at hs
      rw [lower_numeral h,lower_numeral (numeral_intString _)] at hs
      exact String.toList_inj.mp hs
    rw [he,numeral_intString] at h
    exact h
  next => rw [if_neg (fun h => hk (.inr (.inr h))),if_neg (fun h => hk (.inr (.inl h)))]; exact h

theorem inputEqualDef_keyword (hk : isKeyword conf) (d : String) : inputEqualDef D conf d = false := by
  unfold inputEqualDef
  rw [D.read_keyword conf hk]
  rfl

theorem inputEqualDef_iff {m : Int} {d : String} (h : Denotes .devLong conf n) (hd : Denotes .devLong d m) :
    inputEqualDef D conf d = true ↔ n = m := by
  unfold inputEqualDef
  rw [h.read.1,D.cast_isInt _ _ _ h.read.2 h.fits,readSigned_denotes hd]
  simp

/-- A start after a period was stored. -/
theorem initPeriod_upd (h : numeral text = some n) (hn : 0 < n ∧ n ≤ intMax) (db : List AttrProperty) :
    initPeriod attr (updAttDatabase (D := D) [⟨p.name,.upd text⟩] db) p = Int32.ofInt n := by
  have hp : startProp attr p.name (updAttDatabase (D := D) [⟨p.name,.upd text⟩] db) = some text := by
    rw [startProp_one,if_pos rfl]
    rfl
  exact initPeriod_text hp (denotes_period h hn) hn.1

/-- A start after the property was deleted. -/
theorem initPeriod_del (hn : 0 < n ∧ n ≤ intMax)
    (h : ((defaultProp attr p.name).map numeral).getD (some p.default.toInt) = some n) (db : List AttrProperty) :
    initPeriod attr (updAttDatabase (D := D) [⟨p.name,.del⟩] db) p = Int32.ofInt n := by
  have hp : startProp attr p.name (updAttDatabase (D := D) [⟨p.name,.del⟩] db) = defaultProp attr p.name := by
    rw [startProp_one,if_pos rfl]
    rfl
  cases hdp : defaultProp attr p.name with
  | none =>
    rw [hdp] at h hp
    cases h
    rw [initPeriod_none hp,ofInt_default]
  | some d =>
    rw [hdp] at h hp
    exact initPeriod_text hp (denotes_period h hn) hn.1

/-- The work for a period leaves this one for a start. -/
def PeriodLeft (attr : AttrDesc) (p : PeriodProp) (n : Int) (r : Except DevErrorList (List (AttPropDb D))) : Prop :=
  ∃ work, r = .ok work ∧ ∀ db, initPeriod attr (updAttDatabase work db) p = Int32.ofInt n

theorem periodLeft_upd (h : numeral text = some n) (hn : 0 < n ∧ n ≤ intMax) :
    PeriodLeft (D := D) attr p n (.ok [⟨p.name,.upd text⟩]) :=
  ⟨_,rfl,initPeriod_upd h hn⟩

theorem periodLeft_del (hn : 0 < n ∧ n ≤ intMax)
    (h : ((defaultProp attr p.name).map numeral).getD (some p.default.toInt) = some n) :
    PeriodLeft (D := D) attr p n (.ok [⟨p.name,.del⟩]) :=
  ⟨_,rfl,initPeriod_del hn h⟩

section Stored
include hst

theorem storePeriod_class {c : String} {m : Int} (hcl : propInList p.name attr.classProperties = some c)
    (hm : Denotes .devLong c m) :
    storePeriod D attr p conf = true ↔
      ¬ (sameNoCase conf "NaN" ∨ conf = c ∨ inputEqualDef D conf c = true) := by
  unfold storePeriod AttrDesc.periodDefault
  rw [if_neg hst,if_neg hst,hcl]
  dsimp only
  rw [if_neg hm.not_keyword]
  simp [and_assoc]

theorem storePeriod_user {u : String} (hcl : propInList p.name attr.classProperties = none)
    (hu : propInList p.name attr.userDefaultProperties = some u) :
    storePeriod D attr p conf = true ↔
      ¬ (sameNoCase conf "NaN" ∨ conf = u ∨ conf = "" ∨ inputEqualDef D conf u = true) := by
  unfold storePeriod AttrDesc.periodDefault
  rw [if_neg hst,if_neg hst,hcl,hu]
  simp [and_assoc]

theorem storePeriod_none (hcl : propInList p.name attr.classProperties = none)
    (hu : propInList p.name attr.userDefaultProperties = none) :
    storePeriod D attr p conf = true ↔
      ¬ (p.isLibrary conf ∨ sameNoCase conf "NaN" ∨ conf = "" ∨
        ((D.read conf).2 = true ∧ D.cast .devLong (D.read conf).1 = p.default.toInt)) := by
  unfold storePeriod AttrDesc.periodDefault
  rw [if_neg hst,if_neg hst,hcl,hu]
  cases (D.read conf).2 <;> simp [and_assoc]

end Stored

/-- There is at most one work item. -/
theorem periodDb_short {work : List (AttPropDb D)} (h : periodDb D attr p conf = .ok work) :
    work = [] ∨ ∃ dba, work = [⟨p.name,dba⟩] := by
  unfold periodDb at h
  split at h
  next =>
    split at h
    next => cases h; exact .inr ⟨_,rfl⟩
    next =>
      split at h
      next => split at h <;> (cases h; exact .inr ⟨_,rfl⟩)
      next =>
        cases hr : readPeriod D attr p conf with
        | error e =>
          rw [hr] at h
          cases h
        | ok m =>
          rw [hr] at h
          cases h
          exact .inr ⟨_,rfl⟩
  next => cases h; exact .inr ⟨_,rfl⟩

variable (hd : EventDefaultsOk attr)
include hd

theorem period_defaults {d : String} (h : propInList p.name attr.classProperties = some d ∨
    propInList p.name attr.userDefaultProperties = some d) : ∃ m, Denotes .devLong d m :=
  h.elim (fun h => hd.period p _ (by simp) d h) (fun h => hd.period p _ (by simp) d h)

include hst

/-- A start after a request with a number. -/
theorem periodDb_number (h : numeral conf = some n) (hn : 0 < n ∧ n ≤ intMax) :
    PeriodLeft (D := D) attr p n (periodDb D attr p conf) := by
  have hden := denotes_period h hn
  have hk := hden.not_keyword
  have hread : readPeriod D attr p conf = .ok (Int32.ofInt n) := by
    unfold readPeriod
    rw [if_pos hden.read.1,D.cast_isInt _ _ _ hden.read.2 hden.fits]
  have hstore : PeriodLeft (D := D) attr p n
      ((readPeriod D attr p conf).map (fun m => [⟨p.name,.upd (intString m.toInt)⟩])) := by
    rw [hread]
    refine periodLeft_upd ?_ hn
    rw [toInt_ofInt hn,numeral_intString]
  simp only [isKeyword,not_or] at hk
  unfold periodDb
  rw [if_neg hk.1,if_neg hk.2.1]
  split
  next => exact hstore
  next hs =>
    refine periodLeft_del hn ?_
    unfold defaultProp
    cases hcl : propInList p.name attr.classProperties with
    | some c =>
      obtain ⟨m,hm⟩ := period_defaults hd (.inl hcl)
      rw [storePeriod_class hst hcl hm,not_not,inputEqualDef_iff hden hm] at hs
      rcases hs.resolve_left hk.2.2 with rfl | rfl
      · exact h
      · exact hm.numeral
    | none =>
      cases hu : propInList p.name attr.userDefaultProperties with
      | some u =>
        obtain ⟨m,hm⟩ := period_defaults hd (.inr hu)
        rw [storePeriod_user hst hcl hu,not_not,inputEqualDef_iff hden hm] at hs
        rcases hs.resolve_left hk.2.2 with rfl | he | rfl
        · exact h
        · exact absurd he hk.2.1
        · exact hm.numeral
      | none =>
        rw [storePeriod_none hst hcl hu,not_not] at hs
        have ha : askedPeriod attr p conf = some n := asked_number h
        rcases hs with hl | he | he | ⟨-,he⟩
        · unfold askedPeriod at ha
          rw [if_pos hl] at ha
          exact ha
        · exact absurd he hk.2.2
        · exact absurd he hk.2.1
        · rw [D.cast_isInt _ _ _ hden.read.2 hden.fits] at he
          exact congrArg some he.symm

/-- A start after a request with a keyword. -/
theorem periodDb_keyword (hk : isKeyword conf) (ha : askedPeriod attr p conf = some n) (hn : 0 < n ∧ n ≤ intMax) :
    PeriodLeft (D := D) attr p n (periodDb D attr p conf) := by
  have hlib := keyword_library (p := p) hk
  have hdflt : ∀ {d : String}, propInList p.name attr.classProperties = some d ∨
      propInList p.name attr.userDefaultProperties = some d → conf ≠ d := by
    intro d h
    obtain ⟨m,hm⟩ := period_defaults hd h
    exact keyword_ne hk hm
  have hclass : ∀ {c : String}, propInList p.name attr.classProperties = some c →
      (storePeriod D attr p conf = true ↔ ¬ sameNoCase conf "NaN") := by
    intro c hcl
    obtain ⟨m,hm⟩ := period_defaults hd (.inl hcl)
    rw [storePeriod_class hst hcl hm,inputEqualDef_keyword hk]
    simp [hdflt (.inl hcl)]
  have huser : ∀ {u : String}, propInList p.name attr.classProperties = none →
      propInList p.name attr.userDefaultProperties = some u →
      (storePeriod D attr p conf = true ↔ ¬ (sameNoCase conf "NaN" ∨ conf = "")) := by
    intro u hcl hu
    rw [storePeriod_user hst hcl hu,inputEqualDef_keyword hk]
    simp [hdflt (.inr hu)]
  have hnone : propInList p.name attr.classProperties = none →
      propInList p.name attr.userDefaultProperties = none → ¬ storePeriod D attr p conf = true := by
    intro hcl hu
    rw [storePeriod_none hst hcl hu,hlib,not_not]
    exact hk.elim .inl (fun hk => hk.elim (fun h => .inr (.inr (.inl h))) (fun h => .inr (.inl h)))
  unfold askedPeriod at ha
  dsimp only at ha
  unfold periodDb
  rcases hk with h1 | rfl | h1
  · obtain ⟨h2,h3⟩ := notSpecified_excludes h1
    rw [if_pos (hlib.mpr h1)] at ha
    rw [if_pos h1]
    split
    next => exact periodLeft_upd ((numeral_intString _).trans ha) hn
    next hs =>
      refine periodLeft_del hn ?_
      unfold defaultProp
      cases hcl : propInList p.name attr.classProperties with
      | some c => exact absurd ((hclass hcl).mpr h2) hs
      | none =>
        cases hu : propInList p.name attr.userDefaultProperties with
        | some u => exact absurd ((huser hcl hu).mpr (not_or.mpr ⟨h2,h3⟩)) hs
        | none => exact ha
  · have h1 : ¬ sameNoCase "" "Not specified" := by decide
    have h2 : ¬ sameNoCase "" "NaN" := by decide
    rw [if_neg (mt hlib.mp h1),if_neg h2,if_pos rfl] at ha
    unfold AttrDesc.periodDefault
    rw [if_neg hst,if_neg hst,if_neg h1,if_pos rfl]
    cases hcl : propInList p.name attr.classProperties with
    | some c =>
      rw [if_pos ((hclass hcl).mpr h2)]
      cases hu : propInList p.name attr.userDefaultProperties with
      | some u =>
        rw [hu] at ha
        exact periodLeft_upd ha hn
      | none =>
        rw [hu] at ha
        exact periodLeft_upd ((numeral_intString _).trans ha) hn
    | none =>
      cases hu : propInList p.name attr.userDefaultProperties with
      | some u =>
        rw [hu] at ha
        rw [if_neg (fun hs => (huser hcl hu).mp hs (.inr rfl))]
        refine periodLeft_del hn ?_
        unfold defaultProp
        rw [hcl,hu]
        exact ha
      | none =>
        rw [hu] at ha
        rw [if_neg (hnone hcl hu)]
        refine periodLeft_del hn ?_
        unfold defaultProp
        rw [hcl,hu]
        exact ha
  · obtain ⟨h2,h3,-⟩ := nan_excludes h1
    rw [if_neg (mt hlib.mp h2),if_pos h1] at ha
    have hs : ¬ storePeriod D attr p conf = true := by
      cases hcl : propInList p.name attr.classProperties with
      | some c => exact fun hs => (hclass hcl).mp hs h1
      | none =>
        cases hu : propInList p.name attr.userDefaultProperties with
        | some u => exact fun hs => (huser hcl hu).mp hs (.inl h1)
        | none => exact hnone hcl hu
    rw [if_neg hs]
    refine periodLeft_del hn ?_
    unfold defaultProp
    cases hdp : (propInList p.name attr.classProperties).or (propInList p.name attr.userDefaultProperties) with
    | some d =>
      rw [hdp] at ha
      exact ha
    | none =>
      rw [hdp] at ha
      exact ha

end Periods

end CppTango.Device.Conf
