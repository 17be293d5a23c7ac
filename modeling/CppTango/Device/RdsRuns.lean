import CppTango.Device.ConfRestart

namespace CppTango.Device.Conf

open CppTango.Lib StrProps

variable {D : Doubles} {attr : AttrDesc} {conf text : String} {n : Int}

/-- Each default is a decimal integer, the one of `delta_t` not 0. -/
structure RdsDefaultsOk (attr : AttrDesc) : Prop where
  classVal : ∀ d, propInList "delta_val" attr.classProperties = some d → ∃ n, Denotes attr.dataType d n
  userVal : ∀ d, propInList "delta_val" attr.userDefaultProperties = some d → ∃ n, Denotes attr.dataType d n
  classT : ∀ d, propInList "delta_t" attr.classProperties = some d → ∃ n ≠ 0, Denotes .devLong64 d n
  userT : ∀ d, propInList "delta_t" attr.userDefaultProperties = some d → ∃ n ≠ 0, Denotes .devLong64 d n

/-- The two texts of a request. -/
def RdsConfOk (attr : AttrDesc) (conf : RdsTexts) : Prop :=
  ConfOk attr.dataType conf.deltaVal ∧ ConfOk .devLong64 conf.deltaT

section Texts

theorem zero_denotes : Denotes .devLong64 "0" 0 := ⟨by decide,⟨_,rfl,by decide,by decide⟩,by decide⟩

end Texts

section Asked
variable (hd : RdsDefaultsOk attr)
include hd

omit hd in
/-- The text that is chosen is the library default, a default or the one of the request. -/
theorem chooseRds_text {P : String → Prop} {name library : String} {isLibrary : Prop} [Decidable isLibrary]
    (hlib : P library) (hclass : ∀ d, propInList name attr.classProperties = some d → P d)
    (huser : ∀ d, propInList name attr.userDefaultProperties = some d → P d)
    (hconf : ¬ isLibrary → ¬ sameNoCase conf "NaN" → conf ≠ "" → P conf) :
    P (chooseRds attr name library conf isLibrary).1 := by
  unfold chooseRds
  dsimp only
  split
  next => exact hlib
  next h1 =>
    split
    next =>
      cases hcl : propInList name attr.classProperties with
      | some d => exact hclass d hcl
      | none =>
        cases hu : propInList name attr.userDefaultProperties with
        | some d => exact huser d hu
        | none => exact hlib
    next h2 =>
      split
      next =>
        cases hu : propInList name attr.userDefaultProperties with
        | some d => exact huser d hu
        | none => exact hlib
      next h3 => exact hconf h1 h2 h3

theorem askedVal_means (hc : ConfOk attr.dataType conf) :
    Means attr.dataType (chooseRds attr "delta_val" "Not specified" conf (sameNoCase conf "Not specified")).1
      (askedVal attr conf) := by
  have hm : ∃ o, Means attr.dataType
      (chooseRds attr "delta_val" "Not specified" conf (sameNoCase conf "Not specified")).1 o := by
    refine chooseRds_text (P := fun text => ∃ o, Means attr.dataType text o) ⟨none,rfl⟩ ?_ ?_ ?_
    · intro d h
      obtain ⟨n,hn⟩ := hd.classVal d h
      exact ⟨some n,hn⟩
    · intro d h
      obtain ⟨n,hn⟩ := hd.userVal d h
      exact ⟨some n,hn⟩
    · intro h1 h2 h3
      obtain ⟨n,hn⟩ := hc.resolve_left (fun hk => hk.elim h1 (fun hk => hk.elim h3 h2))
      exact ⟨some n,hn⟩
  obtain ⟨o,ho⟩ := hm
  unfold askedVal
  cases o with
  | none =>
    have ho : _ = "Not specified" := ho
    rw [ho]
    exact rfl
  | some n =>
    rw [ho.numeral]
    exact ho

theorem chosenT_denotes (hc : ConfOk .devLong64 conf) :
    ∃ n, Denotes .devLong64 (chooseRds attr "delta_t" "0" conf
      (sameNoCase conf "Not specified" ∨ sameNoCase conf "0" ∨ sameNoCase conf "0.0")).1 n := by
  refine chooseRds_text (P := fun text => ∃ n, Denotes .devLong64 text n) ⟨0,zero_denotes⟩ ?_ ?_ ?_
  · intro d h
    obtain ⟨n,-,hn⟩ := hd.classT d h
    exact ⟨n,hn⟩
  · intro d h
    obtain ⟨n,-,hn⟩ := hd.userT d h
    exact ⟨n,hn⟩
  · intro h1 h2 h3
    exact hc.resolve_left (fun hk => hk.elim (fun h => h1 (.inl h)) (fun hk => hk.elim h3 h2))

variable (ht : isInteger attr.dataType)
include ht

theorem setDeltaVal_spec (hc : ConfOk attr.dataType conf) (s : RdsConf D) :
    ∃ r, setDeltaVal attr conf s = (r,.ok (askedVal attr conf).isSome) ∧
      r.deltaVal = ((askedVal attr conf).map .int).getD s.deltaVal ∧ r.deltaT = s.deltaT := by
  have hm := askedVal_means hd hc
  unfold setDeltaVal
  cases ho : askedVal attr conf with
  | none =>
    rw [ho] at hm
    have hm : _ = "Not specified" := hm
    dsimp only
    rw [if_pos hm]
    exact ⟨_,rfl,rfl,rfl⟩
  | some n =>
    rw [ho] at hm
    have hm : Denotes _ _ n := hm
    dsimp only
    rw [if_neg hm.ne_notSpecified,if_neg (integer_number ht).1]
    unfold convertPropValue
    rw [if_pos hm.read.1]
    exact ⟨_,rfl,castTo_denotes (.inl ht) hm,rfl⟩

theorem setDeltaT_spec (hc : ConfOk .devLong64 conf) (s : RdsConf D) :
    ∃ r, setDeltaT attr conf s = (r,.ok (askedT attr conf).isSome) ∧
      r.deltaT = (askedT attr conf).getD 0 ∧ r.deltaVal = s.deltaVal := by
  obtain ⟨n,hn⟩ := chosenT_denotes hd hc
  unfold setDeltaT askedT
  dsimp only
  split
  next h => exact ⟨_,rfl,rfl,rfl⟩
  next h =>
    rw [if_neg (integer_number ht).1,if_pos hn.read.1,hn.numeral]
    exact ⟨_,rfl,D.cast_isInt _ _ _ hn.read.2 hn.fits,rfl⟩

/-- The alarm in memory after a request. -/
theorem setRdsPropVal_spec {conf : RdsTexts} (hc : RdsConfOk attr conf) (s : RdsConf D) :
    ∃ r, setRdsPropVal attr conf s = (r,.ok ()) ∧
      r.deltaVal = ((askedVal attr conf.deltaVal).map .int).getD s.deltaVal ∧
      r.deltaT = (askedT attr conf.deltaT).getD 0 ∧
      r.rds = ((askedVal attr conf.deltaVal).isSome && (askedT attr conf.deltaT).isSome) := by
  obtain ⟨r1,h1,hv1,-⟩ := setDeltaVal_spec hd ht hc.1 s
  obtain ⟨r2,h2,ht2,hv2⟩ := setDeltaT_spec hd ht hc.2 r1
  unfold setRdsPropVal
  rw [h1]
  dsimp only
  rw [h2]
  exact ⟨_,rfl,hv2.trans hv1,ht2,Bool.and_comm _ _⟩

end Asked

section Stored
variable (hd : RdsDefaultsOk attr)
include hd

theorem deltaValDb_keyword (h : isKeyword conf) :
    deltaValDb D attr conf =
      .ok (chooseRds attr "delta_val" "Not specified" conf (sameNoCase conf "Not specified")).1 := by
  have hclass : ∀ d, propInList "delta_val" attr.classProperties = some d → conf ≠ d := by
    intro d hcl
    obtain ⟨n,hn⟩ := hd.classVal d hcl
    exact keyword_ne h hn
  have huser : ∀ d, propInList "delta_val" attr.userDefaultProperties = some d → conf ≠ d := by
    intro d hu
    obtain ⟨n,hn⟩ := hd.userVal d hu
    exact keyword_ne h hn
  unfold deltaValDb chooseRds
  rcases h with hk | rfl | hk
  · obtain ⟨h1,h2⟩ := notSpecified_excludes hk
    cases hcl : propInList "delta_val" attr.classProperties with
    | some d => simp [hk,h1,h2,hclass d hcl]
    | none =>
      cases hu : propInList "delta_val" attr.userDefaultProperties with
      | some d => simp [hk,h1,h2,huser d hu]
      | none => simp [hk,isKeyword]
  · have h1 : ¬ sameNoCase "" "NaN" := by decide
    have h2 : ¬ sameNoCase "" "Not specified" := by decide
    cases hcl : propInList "delta_val" attr.classProperties with
    | some d => simp [h1,h2,hclass d hcl]
    | none =>
      cases hu : propInList "delta_val" attr.userDefaultProperties with
      | some d => simp [h1,h2]
      | none => simp [h1,h2,isKeyword]
  · obtain ⟨h1,h2,-⟩ := nan_excludes hk
    cases hcl : propInList "delta_val" attr.classProperties with
    | some d => simp [hk,h1]
    | none =>
      cases hu : propInList "delta_val" attr.userDefaultProperties with
      | some d => simp [hk,h1]
      | none => simp [hk,h1,isKeyword]

/-- The text the database work has for `delta_val` means what the request asks for. -/
theorem deltaValDb_spec (ht : isInteger attr.dataType) (hc : ConfOk attr.dataType conf) :
    ∃ v, deltaValDb D attr conf = .ok v ∧ Means attr.dataType v (askedVal attr conf) := by
  have hm := askedVal_means hd hc
  rcases hc with hk | ⟨n,hn⟩
  · exact ⟨_,deltaValDb_keyword hd hk,hm⟩
  have hk := hn.not_keyword
  have ha : askedVal attr conf = some n := by
    unfold askedVal
    rw [chooseRds_number (fun h => hk (.inl h)) hk]
    exact hn.numeral
  have he : attr.dataType ≠ .devEnum := by
    intro he
    rw [he] at ht
    exact absurd ht (by decide)
  have hnumber : typedText D attr.dataType conf (D.read conf).1 = intString n := typedText_denotes (.inl ht) hn
  have hint : Means attr.dataType (intString n) (some n) := denotes_intString hn.fits hn.exact
  have hsame : Means attr.dataType conf (some n) := hn
  simp only [isKeyword,not_or] at hk
  rw [ha]
  unfold deltaValDb
  rw [if_neg (not_or.mpr ⟨(integer_number ht).1,he⟩),if_pos hn.read.1,hnumber]
  cases hcl : propInList "delta_val" attr.classProperties with
  | some d =>
    by_cases hcd : conf = d
    · exact ⟨d,if_pos (.inr hcd),hcd ▸ hsame⟩
    · exact ⟨intString n,by simp [hk,hcd],hint⟩
  | none =>
    cases hu : propInList "delta_val" attr.userDefaultProperties with
    | some d =>
      by_cases hcd : conf = d
      · exact ⟨d,if_pos (.inr (.inl hcd)),hcd ▸ hsame⟩
      · exact ⟨intString n,by simp [hk,hcd],hint⟩
    | none => exact ⟨intString n,by simp [hk,isKeyword],hint⟩

/-- The text chosen for `delta_t` is the number asked for, or 0. -/
theorem askedT_denotes (hc : ConfOk .devLong64 conf) :
    Denotes .devLong64 (chooseRds attr "delta_t" "0" conf
      (sameNoCase conf "Not specified" ∨ sameNoCase conf "0" ∨ sameNoCase conf "0.0")).1
      ((askedT attr conf).getD 0) := by
  obtain ⟨n,hn⟩ := chosenT_denotes hd hc
  unfold askedT
  dsimp only
  split
  next h =>
    rw [h]
    exact zero_denotes
  next h =>
    rw [hn.numeral]
    exact hn

/-- Where the class has no default of `delta_t` the text is not taken for another one. -/
theorem not_taken (h : takenForDefault attr conf = none) {d : String}
    (hcl : propInList "delta_t" attr.classProperties = some d) :
    conf ≠ (propInList "delta_val" attr.classProperties).getD "" := by
  intro he
  obtain ⟨n,-,hn⟩ := hd.classT d hcl
  unfold takenForDefault at h
  rw [if_pos he,hcl,Option.bind_some,hn.numeral] at h
  cases h

theorem deltaTDb_keyword (h : isKeyword conf) (hno : takenForDefault attr conf = none) :
    deltaTDb D attr conf = .ok (chooseRds attr "delta_t" "0" conf
      (sameNoCase conf "Not specified" ∨ sameNoCase conf "0" ∨ sameNoCase conf "0.0")).1 := by
  have hclass := fun d => not_taken hd hno (d := d)
  have huser : ∀ d, propInList "delta_t" attr.userDefaultProperties = some d → conf ≠ d := by
    intro d hu
    obtain ⟨n,-,hn⟩ := hd.userT d hu
    exact keyword_ne h hn
  unfold deltaTDb chooseRds
  rcases h with hk | rfl | hk
  · obtain ⟨h1,h2⟩ := notSpecified_excludes hk
    cases hcl : propInList "delta_t" attr.classProperties with
    | some d => simp [hk,h1,h2,hclass d hcl]
    | none =>
      cases hu : propInList "delta_t" attr.userDefaultProperties with
      | some d => simp [hk,h1,h2,huser d hu]
      | none => simp [hk,isKeyword]
  · have h1 : ¬ sameNoCase "" "NaN" := by decide
    have h2 : ¬ sameNoCase "" "Not specified" := by decide
    have h3 : ¬ sameNoCase "" "0" := by decide
    have h4 : ¬ sameNoCase "" "0.0" := by decide
    cases hcl : propInList "delta_t" attr.classProperties with
    | some d => simp [h1,h2,h3,h4,hclass d hcl]
    | none =>
      cases hu : propInList "delta_t" attr.userDefaultProperties with
      | some d => simp [h1,h2,h3,h4]
      | none => simp [h1,h2,h3,h4,isKeyword]
  · obtain ⟨h1,h2,h3,h4⟩ := nan_excludes hk
    cases hcl : propInList "delta_t" attr.classProperties with
    | some d => simp [hk,h1,h3,h4]
    | none =>
      cases hu : propInList "delta_t" attr.userDefaultProperties with
      | some d => simp [hk,h1,h3,h4]
      | none => simp [hk,h1,h3,h4,isKeyword]

omit hd in
/-- The only number that stands for the library default is the text "0" itself. -/
theorem chosenT_number (hn : Denotes .devLong64 conf n) :
    (chooseRds attr "delta_t" "0" conf
      (sameNoCase conf "Not specified" ∨ sameNoCase conf "0" ∨ sameNoCase conf "0.0")).1 = conf := by
  by_cases h0 : sameNoCase conf "0"
  · have he := (hn.sameNoCase_iff zero_denotes).mp h0
    subst he
    unfold chooseRds
    dsimp only
    rw [if_pos (.inr (.inl h0))]
  · have hp : ¬ sameNoCase conf "0.0" := by
      intro hp
      have hdot : '.' ∈ conf.toList := by
        rw [← lower_numeral hn.numeral]
        exact hp ▸ (by decide)
      exact absurd ((numeral_chars hn.numeral).2 '.' hdot) (by decide)
    rw [chooseRds_number (fun h => h.elim (fun h => hn.not_keyword (.inl h)) (fun h => h.elim h0 hp))
      hn.not_keyword]

theorem chosenT_zero (hk : isKeyword conf) {t : AttrType} (hn : Denotes t (chooseRds attr "delta_t" "0" conf
      (sameNoCase conf "Not specified" ∨ sameNoCase conf "0" ∨ sameNoCase conf "0.0")).1 0) :
    (chooseRds attr "delta_t" "0" conf
      (sameNoCase conf "Not specified" ∨ sameNoCase conf "0" ∨ sameNoCase conf "0.0")).1 = "0" := by
  revert hn
  refine chooseRds_text (P := fun text => Denotes t text 0 → text = "0") (fun _ => rfl) ?_ ?_ ?_
  · intro d hcl h0
    obtain ⟨n,hne,hn⟩ := hd.classT d hcl
    exact absurd (Option.some.inj (hn.numeral.symm.trans h0.numeral)) hne
  · intro d hu h0
    obtain ⟨n,hne,hn⟩ := hd.userT d hu
    exact absurd (Option.some.inj (hn.numeral.symm.trans h0.numeral)) hne
  · intro h1 h2 h3
    exact (hk.elim (fun h => h1 (.inl h)) (fun hk => hk.elim h3 h2)).elim

/-- The text the database work has for `delta_t`; 0 is spelled "0". -/
theorem deltaTDb_spec (ht : isInteger attr.dataType) (hc : ConfOk .devLong64 conf) :
    ∃ x, deltaTDb D attr conf = .ok x ∧ Denotes .devLong64 x (storedT attr conf) ∧
      (storedT attr conf = 0 → x = "0") := by
  have ha := askedT_denotes hd hc
  cases htk : takenForDefault attr conf with
  | some m =>
    unfold storedT
    rw [htk,Option.getD_some]
    unfold takenForDefault at htk
    obtain ⟨he,hm⟩ := Option.ite_none_right_eq_some.mp htk
    obtain ⟨d,hcl,hnum⟩ := Option.bind_eq_some_iff.mp hm
    obtain ⟨n,hne,hn⟩ := hd.classT d hcl
    obtain rfl := Option.some.inj (hnum.symm.trans hn.numeral)
    refine ⟨d,?_,hn,fun h0 => absurd h0 hne⟩
    unfold deltaTDb
    rw [hcl]
    exact if_pos (.inr he)
  | none =>
    have hs : storedT attr conf = (askedT attr conf).getD 0 := by
      unfold storedT
      rw [htk,Option.getD_none]
    rw [hs]
    rcases hc with hk | ⟨n,hn⟩
    · exact ⟨_,deltaTDb_keyword hd hk htk,ha,fun h0 => chosenT_zero hd hk (h0 ▸ ha)⟩
    have hnum : (askedT attr conf).getD 0 = n := by
      rw [chosenT_number hn] at ha
      exact Option.some.inj (ha.numeral.symm.trans hn.numeral)
    have hk := hn.not_keyword
    have hint := denotes_intString hn.fits hn.exact
    have hcast : D.cast .devLong64 (D.read conf).1 = n := D.cast_isInt _ _ _ hn.read.2 hn.fits
    have hzero : n = 0 → intString n = "0" := by
      rintro rfl
      decide
    have hlib : sameNoCase conf "0" ∨ sameNoCase conf "0.0" → n = 0 := by
      intro h
      have hch : (chooseRds attr _ _ _ _).1 = conf := chosenT_number hn
      have hn0 : Denotes .devLong64 "0" n := by
        unfold chooseRds at hch
        dsimp only at hch
        rw [if_pos (.inr h)] at hch
        have hch : "0" = conf := hch
        rw [hch]
        exact hn
      exact Option.some.inj (hn0.numeral.symm.trans (by decide))
    simp only [isKeyword,not_or] at hk
    rw [hnum]
    unfold deltaTDb
    rw [if_neg (integer_number ht).1,if_pos hn.read.1,hcast]
    cases hcl : propInList "delta_t" attr.classProperties with
    | some d =>
      have hne := not_taken hd htk hcl
      exact ⟨intString n,by simp [hk,hne],hint,hzero⟩
    | none =>
      cases hu : propInList "delta_t" attr.userDefaultProperties with
      | some d =>
        obtain ⟨m,hm0,hm⟩ := hd.userT d hu
        by_cases hcd : conf = d
        · refine ⟨d,if_pos (.inr (.inl hcd)),hcd ▸ hn,fun h0 => absurd ?_ hm0⟩
          subst hcd
          exact (Option.some.inj (hm.numeral.symm.trans hn.numeral)).trans h0
        · by_cases hl : sameNoCase conf "0" ∨ sameNoCase conf "0.0"
          · obtain rfl := hlib hl
            exact ⟨"0",by simp [hk,hcd,hl],zero_denotes,fun _ => rfl⟩
          · exact ⟨intString n,by simp [hk,hcd,hl],hint,hzero⟩
      | none =>
        by_cases hl : sameNoCase conf "0" ∨ sameNoCase conf "0.0"
        · obtain rfl := hlib hl
          exact ⟨"0",by simp [hl],zero_denotes,fun _ => rfl⟩
        · exact ⟨intString n,by simp [hk,hl,isKeyword],hint,hzero⟩

end Stored

section Work
variable {db : List AttrProperty} {v x : String} {o : Option Int}

/-- The alarm a start sets up, from the texts it finds. -/
theorem initRds_of_texts (ht : isInteger attr.dataType) (hv : Means attr.dataType v o)
    (hx : Denotes .devLong64 x n) (h1 : startText attr "delta_val" "Not specified" db = v)
    (h2 : startText attr "delta_t" "0" db = x) :
    initRds D attr db = if n = 0 then none else o.map (fun m => (.int m,n)) := by
  have hT : initDeltaT attr db = if n = 0 then none else some n := by
    obtain ⟨b,hb,hlo,hhi⟩ := hx.fits
    cases hb
    unfold initDeltaT
    dsimp only
    rw [h2]
    split
    next h =>
      obtain rfl := h.resolve_right (integer_number ht).1
      rw [if_pos (Option.some.inj (hx.numeral.symm.trans zero_denotes.numeral))]
    next =>
      rw [readSignedEnd_numeral hx.numeral ⟨hlo,hhi⟩]
      split
      next h0 => rw [Option.filter_some_neg (by simp [h0])]
      next h0 => rw [Option.filter_some_pos (by simp [h0])]
  have hV : initDeltaVal D attr db = o.map .int := by
    unfold initDeltaVal
    dsimp only
    rw [h1]
    cases o with
    | none => exact if_pos hv
    | some m =>
      rw [if_neg hv.ne_notSpecified,initCheckValProp_denotes (.inl ht) hv]
      rfl
  unfold initRds
  rw [hT,hV]
  by_cases h0 : n = 0
  · rw [if_pos h0,if_pos h0]
    cases o <;> rfl
  · rw [if_neg h0,if_neg h0]
    cases o <;> rfl

/-- A text that is, but for the case, the default or nothing is the default. -/
theorem same_default {t t' : AttrType} {dflt : Option String} (hd : ∀ d, dflt = some d → ∃ m, Denotes t' d m)
    (hv : Means t v o) (h : sameNoCase v (dflt.getD "")) : dflt = some v ∧ o.isSome = true := by
  cases dflt with
  | none =>
    have he : v.toList = [] := List.map_eq_nil_iff.mp (h.trans rfl)
    cases o with
    | none =>
      have hv : v = "Not specified" := hv
      rw [hv] at he
      exact absurd he (by decide)
    | some m => exact absurd he (numeral_chars hv.numeral).1
  | some d =>
    obtain ⟨m,hm⟩ := hd d rfl
    cases o with
    | none =>
      have hv : v = "Not specified" := hv
      rw [hv] at h
      exact absurd h.symm (hm.not_sameNoCase (by decide))
    | some k => exact ⟨congrArg some ((hv.sameNoCase_iff hm).mp h).symm,rfl⟩

def storeBoth (v x : String) : List (AttPropDb D) := [⟨"delta_val",.upd v⟩,⟨"delta_t",.upd x⟩]

def deleteBoth : List (AttPropDb D) := [⟨"delta_val",.del⟩,⟨"delta_t",.del⟩]

theorem names_differ (a b : PropDba D) :
    ([⟨"delta_val",a⟩,⟨"delta_t",b⟩] : List (AttPropDb D)).map AttPropDb.name |>.Nodup := by
  simp

theorem startText_store (v x : String) :
    startText attr "delta_val" "Not specified" (updAttDatabase (D := D) (storeBoth v x) db) = v ∧
      startText attr "delta_t" "0" (updAttDatabase (D := D) (storeBoth v x) db) = x := by
  unfold storeBoth startText
  rw [startProp_upd (names_differ _ _),startProp_upd (names_differ _ _)]
  exact ⟨rfl,rfl⟩

theorem startText_delete (attr : AttrDesc) (db : List AttrProperty) :
    startText attr "delta_val" "Not specified" (updAttDatabase (D := D) deleteBoth db) =
        (defaultProp attr "delta_val").getD "Not specified" ∧
      startText attr "delta_t" "0" (updAttDatabase (D := D) deleteBoth db) = (defaultProp attr "delta_t").getD "0" := by
  unfold deleteBoth startText
  rw [startProp_upd (names_differ _ _),startProp_upd (names_differ _ _)]
  exact ⟨rfl,rfl⟩

theorem both_or_neither :
    (o.isSome = true ↔ n ≠ 0) ↔ (o = none ∧ n = 0) ∨ (¬ o = none ∧ ¬ n = 0) := by
  cases o <;> simp

variable (hd : RdsDefaultsOk attr)
include hd

/-- The two texts are stored or deleted, and then a start finds them, when both are numbers other
than not specified or neither is; else nothing is done. -/
theorem setRdsPropDb_work {conf : RdsTexts} (hv : deltaValDb D attr conf.deltaVal = .ok v)
    (hx : deltaTDb D attr conf.deltaT = .ok x) (hmv : Means attr.dataType v o) (hmx : Denotes .devLong64 x n)
    (hzero : n = 0 → x = "0") :
    ∃ work, setRdsPropDb D attr conf = .ok work ∧
      if o.isSome ↔ n ≠ 0 then
        ∀ db, startText attr "delta_val" "Not specified" (updAttDatabase work db) = v ∧
          startText attr "delta_t" "0" (updAttDatabase work db) = x
      else work = [] := by
  have hnv : sameNoCase v "Not specified" ↔ o = none := by
    cases o with
    | none =>
      have hmv : v = "Not specified" := hmv
      subst hmv
      exact ⟨fun _ => rfl,fun _ => rfl⟩
    | some m => exact ⟨fun h => absurd h (hmv.not_sameNoCase (by decide)),fun h => nomatch h⟩
  have hnx : sameNoCase x "0" ↔ n = 0 := by
    rw [hmx.sameNoCase_iff zero_denotes]
    refine ⟨fun h => ?_,hzero⟩
    subst h
    exact Option.some.inj (hmx.numeral.symm.trans zero_denotes.numeral)
  have hno : Means .devLong64 x (some n) := hmx
  have hdT : ∀ {p : Option String}, (∀ d, p = some d → ∃ m ≠ 0, Denotes .devLong64 d m) →
      sameNoCase x (p.getD "") → p = some x ∧ n ≠ 0 := by
    intro p hp h
    obtain ⟨he,-⟩ := same_default (fun d hd => (hp d hd).imp (fun m hm => hm.2)) hno h
    obtain ⟨m,hm0,hm⟩ := hp x he
    exact ⟨he,Option.some.inj (hm.numeral.symm.trans hmx.numeral) ▸ hm0⟩
  have hok : ∀ work : List (AttPropDb D), (o.isSome ↔ n ≠ 0) →
      (∀ db, startText attr "delta_val" "Not specified" (updAttDatabase work db) = v ∧
        startText attr "delta_t" "0" (updAttDatabase work db) = x) →
      ∃ w, (Except.ok work : Except DevErrorList _) = .ok w ∧
        if o.isSome ↔ n ≠ 0 then
          ∀ db, startText attr "delta_val" "Not specified" (updAttDatabase w db) = v ∧
            startText attr "delta_t" "0" (updAttDatabase w db) = x
        else w = [] := by
    intro work h htexts
    refine ⟨work,rfl,?_⟩
    rw [if_pos h]
    exact htexts
  have hdelete : ∀ defaults : List AttrProperty,
      (∀ d, propInList "delta_val" defaults = some d → ∃ m, Denotes attr.dataType d m) →
      (∀ d, propInList "delta_t" defaults = some d → ∃ m ≠ 0, Denotes .devLong64 d m) →
      sameNoCase v ((propInList "delta_val" defaults).getD "") ∧
        sameNoCase x ((propInList "delta_t" defaults).getD "") →
      (o.isSome ↔ n ≠ 0) ∧ propInList "delta_val" defaults = some v ∧ propInList "delta_t" defaults = some x := by
    rintro defaults hval ht ⟨h1,h2⟩
    obtain ⟨hv1,ho⟩ := same_default hval hmv h1
    obtain ⟨hx1,hn0⟩ := hdT ht h2
    exact ⟨⟨fun _ => hn0,fun _ => ho⟩,hv1,hx1⟩
  have hrest : ∃ w, (if o = none ∧ n = 0 ∨ ¬ o = none ∧ ¬ n = 0 then
        (Except.ok (storeBoth v x) : Except DevErrorList (List (AttPropDb D))) else .ok []) = .ok w ∧
      if o.isSome ↔ n ≠ 0 then
        ∀ db, startText attr "delta_val" "Not specified" (updAttDatabase w db) = v ∧
          startText attr "delta_t" "0" (updAttDatabase w db) = x
      else w = [] := by
    split
    next hw => exact hok (storeBoth v x) (both_or_neither.mpr hw) (fun _ => startText_store v x)
    next hw => exact ⟨[],rfl,by rw [if_neg (mt both_or_neither.mp hw)]⟩
  unfold setRdsPropDb
  rw [hv,hx]
  simp only [hnv,hnx]
  by_cases hcls : (propInList "delta_val" attr.classProperties).isSome ∨
    (propInList "delta_t" attr.classProperties).isSome
  · rw [if_pos (.inl hcls)]
    simp only [if_pos hcls]
    split
    next hdef =>
      obtain ⟨hb,h1,h2⟩ := hdelete _ hd.classVal hd.classT hdef
      refine hok deleteBoth hb (fun db => ?_)
      obtain ⟨hv',hx'⟩ := startText_delete (D := D) attr db
      rw [hv',hx']
      unfold defaultProp
      rw [h1,h2]
      exact ⟨rfl,rfl⟩
    next => exact hrest
  · have hnc := hcls
    simp only [not_or,Option.not_isSome_iff_eq_none] at hnc
    obtain ⟨hc1,hc2⟩ := hnc
    by_cases huser : (propInList "delta_val" attr.userDefaultProperties).isSome ∨
      (propInList "delta_t" attr.userDefaultProperties).isSome
    · rw [if_pos (.inr huser)]
      simp only [if_neg hcls]
      split
      next hdef =>
        obtain ⟨hb,h1,h2⟩ := hdelete _ hd.userVal hd.userT hdef
        refine hok deleteBoth hb (fun db => ?_)
        obtain ⟨hv',hx'⟩ := startText_delete (D := D) attr db
        rw [hv',hx']
        unfold defaultProp
        rw [h1,h2,hc1,hc2]
        exact ⟨rfl,rfl⟩
      next => exact hrest
    · rw [if_neg (not_or.mpr ⟨hcls,huser⟩)]
      simp only [not_or,Option.not_isSome_iff_eq_none] at huser
      obtain ⟨hu1,hu2⟩ := huser
      split
      next hb => exact hok (storeBoth v x) (both_or_neither.mpr (.inr hb)) (fun _ => startText_store v x)
      next hb =>
        split
        next hn =>
          refine hok deleteBoth (both_or_neither.mpr (.inl hn)) (fun db => ?_)
          obtain ⟨hv',hx'⟩ := startText_delete (D := D) attr db
          have hv0 : v = "Not specified" := by
            rw [hn.1] at hmv
            exact hmv
          rw [hv',hx',hv0,hzero hn.2]
          unfold defaultProp
          rw [hc1,hc2,hu1,hu2]
          exact ⟨rfl,rfl⟩
        next hn => exact ⟨[],rfl,by rw [if_neg (mt both_or_neither.mp (fun h => h.elim hn hb))]⟩

end Work

section Steps
variable {s s' : RdsState D} {conf : RdsTexts}

theorem initRds_ne_zero {db : List AttrProperty} {v : CheckVal D} (h : initRds D attr db = some (v,n)) : n ≠ 0 := by
  unfold initRds at h
  split at h
  next v' t' hv ht =>
    cases h
    unfold initDeltaT at ht
    dsimp only at ht
    obtain ⟨-,ht⟩ := Option.ite_none_left_eq_some.mp ht
    exact of_decide_eq_true (Option.filter_eq_some_iff.mp ht).2
  next => cases h

theorem eq_of_not_differs {v : CheckVal D} (h : ¬ v.differs (.int n) = true) : v = .int n := by
  cases v with
  | int m => exact congrArg CheckVal.int (by simpa [CheckVal.differs] using h)
  | dbl x => exact absurd rfl h

variable (hd : RdsDefaultsOk attr)
include hd

theorem taken_ne_zero {text : String} (h : takenForDefault attr text = some n) : n ≠ 0 := by
  unfold takenForDefault at h
  obtain ⟨-,h⟩ := Option.ite_none_right_eq_some.mp h
  obtain ⟨d,hcl,hnum⟩ := Option.bind_eq_some_iff.mp h
  obtain ⟨m,hm0,hm⟩ := hd.classT d hcl
  exact Option.some.inj (hm.numeral.symm.trans hnum) ▸ hm0

variable (ht : isInteger attr.dataType)
include ht

/-- A request is never refused, and what it leaves. -/
theorem changeRds_spec (hc : RdsConfOk attr conf) (s : RdsState D) :
    ∃ s', changeRds attr s conf = some s' ∧
      s'.rds.deltaVal = ((askedVal attr conf.deltaVal).map .int).getD s.rds.deltaVal ∧
      s'.rds.deltaT = (askedT attr conf.deltaT).getD 0 ∧
      s'.rds.rds = ((askedVal attr conf.deltaVal).isSome && (askedT attr conf.deltaT).isSome) ∧
      initRds D attr s'.db =
        if changesRds attr s conf ∧ ((askedVal attr conf.deltaVal).isSome ↔ storedT attr conf.deltaT ≠ 0) then
          (askedVal attr conf.deltaVal).map (fun v => (.int v,storedT attr conf.deltaT))
        else initRds D attr s.db := by
  obtain ⟨r,hr,hval,hT,hflag⟩ := setRdsPropVal_spec hd ht hc s.rds
  obtain ⟨v,hv,hmv⟩ := deltaValDb_spec (D := D) hd ht hc.1
  obtain ⟨x,hx,hmx,hzero⟩ := deltaTDb_spec (D := D) hd ht hc.2
  obtain ⟨work,hw,htexts⟩ := setRdsPropDb_work hd hv hx hmv hmx hzero
  have hchanged : rdsChanged attr.dataType s.rds r ↔ changesRds attr s conf := by
    have hne : attr.dataType ≠ .devEnum ∧ attr.dataType ≠ .devEncoded := by
      constructor <;> (intro he; rw [he] at ht; exact absurd ht (by decide))
    unfold rdsChanged changesRds
    rw [hval,hT]
    simp [hne,(integer_number ht).1]
  have hset : setRdsProp attr conf s.rds =
      (r,if changesRds attr s conf then setRdsPropDb D attr conf else .ok []) := by
    unfold setRdsProp
    rw [hr]
    simp only [hchanged]
  unfold changeRds
  rw [hset]
  by_cases hch : changesRds attr s conf
  · rw [if_pos hch,hw]
    refine ⟨_,rfl,hval,hT,hflag,?_⟩
    by_cases hb : (askedVal attr conf.deltaVal).isSome ↔ storedT attr conf.deltaT ≠ 0
    · rw [if_pos hb] at htexts
      obtain ⟨h1,h2⟩ := htexts s.db
      rw [if_pos ⟨hch,hb⟩,initRds_of_texts ht hmv hmx h1 h2]
      split
      next h0 =>
        have hnone : askedVal attr conf.deltaVal = none := by
          cases ho : askedVal attr conf.deltaVal with
          | none => rfl
          | some m =>
            rw [ho] at hb
            exact absurd h0 (hb.mp rfl)
        rw [hnone]
        rfl
      next => rfl
    · rw [if_neg hb] at htexts
      rw [if_neg (fun h => hb h.2),htexts]
      rfl
  · rw [if_neg hch,if_neg (fun h => hch h.1)]
    exact ⟨_,rfl,hval,hT,hflag,rfl⟩

/-- One request. -/
theorem changeRds_mirrored_iff (hc : RdsConfOk attr conf) (hs : RdsMirrored attr s)
    (h : changeRds attr s conf = some s') : RdsMirrored attr s' ↔ KeepsRds attr s conf := by
  obtain ⟨t,he,hval,hT,hflag,hdb⟩ := changeRds_spec hd ht hc s
  obtain rfl := Option.some.inj (h.symm.trans he)
  obtain ⟨hs1,hs2⟩ := hs
  unfold RdsMirrored KeepsRds
  rw [hdb,hval,hT,hflag]
  split
  next hw =>
    cases hv : askedVal attr conf.deltaVal with
    | none => simp
    | some v =>
      cases hx : askedT attr conf.deltaT with
      | none => simp
      | some x => simp
  next hw =>
    -- nothing is written, so that the old alarm has to be the new one
    constructor
    · rintro ⟨hf,hnew⟩
      refine ⟨hs1.trans hf.symm,?_⟩
      rintro ⟨hv,h0⟩
      rw [hv,h0] at hf
      obtain ⟨⟨v,x⟩,hi⟩ := Option.isSome_iff_exists.mp hf.symm
      have hx := (hnew v x hi).2
      rw [h0] at hx
      exact initRds_ne_zero hi hx.symm
    · rintro ⟨hf,h0⟩
      refine ⟨hf.symm.trans hs1,fun v x hi => ?_⟩
      obtain ⟨hold1,hold2⟩ := hs2 v x hi
      rw [hs1,hi] at hf
      obtain ⟨hv,hx⟩ := Bool.and_eq_true_iff.mp hf.symm
      obtain ⟨m,hm⟩ := Option.isSome_iff_exists.mp hv
      obtain ⟨y,hy⟩ := Option.isSome_iff_exists.mp hx
      have hstored : storedT attr conf.deltaT ≠ 0 := by
        unfold storedT
        cases htk : takenForDefault attr conf.deltaT with
        | some z => exact taken_ne_zero hd htk
        | none =>
          rw [hy]
          exact fun he => h0 ⟨hv,hy.trans (congrArg some he)⟩
      have hkeep : ¬ changesRds attr s conf := fun hch => hw ⟨hch,fun _ => hstored,fun _ => hv⟩
      unfold changesRds at hkeep
      rw [hm,hy] at hkeep ⊢
      obtain ⟨hT,hV⟩ := not_or.mp hkeep
      exact ⟨(eq_of_not_differs hV).symm.trans hold1,(not_not.mp hT).symm.trans hold2⟩

/-- In every run of requests memory and database stay in step, after every request, exactly when
each request keeps the alarm. -/
theorem rds_survives_iff {confs : List RdsTexts} (hc : ∀ conf ∈ confs, RdsConfOk attr conf)
    (hs : RdsMirrored attr s) :
    (∀ l, l <+: confs → RdsMirrored attr (l.foldl (changeRdsStep attr) s)) ↔
      Along (changeRdsStep attr) (KeepsRds attr) s confs := by
  refine (along_iff ?_ hs).symm
  intro t conf hm ht'
  obtain ⟨t',he,-⟩ := changeRds_spec hd ht (hc conf hm) t
  have hstep : changeRdsStep attr t conf = t' := by
    unfold changeRdsStep
    rw [he]
    rfl
  rw [hstep]
  exact changeRds_mirrored_iff hd ht (hc conf hm) ht' he

end Steps

section Samples

/-- A short attribute whose class has defaults for both numbers. -/
def alarmedAttr : AttrDesc :=
  { sampleAttr with classProperties := [⟨"delta_val","5"⟩,⟨"delta_t","10"⟩] }

/-- The alarm of the defaults, and nothing in the database. -/
def alarmedState : RdsState wholeNumbers := ⟨⟨"5",.int 5,"10",10,true⟩,[]⟩

theorem short_number {text : String} {n : Int} (h : numeral text = some n) (hn : n.natAbs < 2 ^ 15) :
    Denotes alarmedAttr.dataType text n ∧ Denotes .devLong64 text n :=
  ⟨⟨h,⟨_,rfl,by dsimp only; omega⟩,by omega⟩,⟨h,⟨_,rfl,by dsimp only; omega⟩,by omega⟩⟩

theorem alarmed_defaults : RdsDefaultsOk alarmedAttr := by
  refine ⟨fun d h => ?_,fun d h => (nomatch h),fun d h => ?_,fun d h => (nomatch h)⟩
  · cases h
    exact ⟨5,(short_number (by decide) (by decide)).1⟩
  · cases h
    exact ⟨10,by decide,(short_number (by decide) (by decide)).2⟩

theorem alarmed_mirrored : RdsMirrored alarmedAttr alarmedState := by
  have hi : initRds wholeNumbers alarmedAttr alarmedState.db = some (.int 5,10) :=
    initRds_of_texts (v := "5") (x := "10") (o := some 5) (n := 10) (by decide)
      (short_number (by decide) (by decide)).1 (short_number (by decide) (by decide)).2 rfl rfl
  unfold RdsMirrored
  rw [hi]
  refine ⟨rfl,fun v t h => ?_⟩
  cases h
  exact ⟨rfl,rfl⟩

theorem numbers_ok {v t : String} {m n : Int} (hv : numeral v = some m) (hm : m.natAbs < 2 ^ 15)
    (ht : numeral t = some n) (hn : n.natAbs < 2 ^ 15) : RdsConfOk alarmedAttr ⟨v,t⟩ :=
  ⟨.inr ⟨m,(short_number hv hm).1⟩,.inr ⟨n,(short_number ht hn).2⟩⟩

theorem new_alarm_survives :
    RdsMirrored alarmedAttr ([⟨"7","20"⟩,⟨"NaN","NaN"⟩].foldl (changeRdsStep alarmedAttr) alarmedState) := by
  refine (rds_survives_iff alarmed_defaults (by decide) ?_ alarmed_mirrored).mpr (by decide) _ (List.prefix_refl _)
  intro conf h
  rcases List.mem_cons.mp h with rfl | h
  · exact numbers_ok (m := 7) (n := 20) (by decide) (by decide) (by decide) (by decide)
  · obtain rfl := List.mem_singleton.mp h
    exact ⟨.inl (by decide),.inl (by decide)⟩

/-- The text for `delta_t` is the class default of `delta_val`: the class default of `delta_t` is
stored. -/
theorem other_default_stored :
    RdsDefaultsOk alarmedAttr ∧ RdsConfOk alarmedAttr ⟨"7","5"⟩ ∧ RdsMirrored alarmedAttr alarmedState ∧
      (changeRds alarmedAttr alarmedState ⟨"7","5"⟩).isSome = true ∧
      ¬ RdsMirrored alarmedAttr (changeRdsStep alarmedAttr alarmedState ⟨"7","5"⟩) := by
  have hc : RdsConfOk alarmedAttr ⟨"7","5"⟩ :=
    numbers_ok (m := 7) (n := 5) (by decide) (by decide) (by decide) (by decide)
  obtain ⟨s',he,-⟩ := changeRds_spec alarmed_defaults (by decide) hc alarmedState
  refine ⟨alarmed_defaults,hc,alarmed_mirrored,by rw [he]; rfl,?_⟩
  have hstep : changeRdsStep alarmedAttr alarmedState ⟨"7","5"⟩ = s' := by
    unfold changeRdsStep
    rw [he]
    rfl
  rw [hstep,changeRds_mirrored_iff alarmed_defaults (by decide) hc alarmed_mirrored he]
  decide

end Samples

end CppTango.Device.Conf
