import CppTango.Device.EventText

namespace CppTango.Device.Conf

open CppTango.Lib StrProps

variable {D : Doubles} {attr : AttrDesc} {p : ChangeProp} {conf text : String} {n : Int} {db : List AttrProperty}

/-- A part of a default: an integer or not specified. -/
def DefaultPartOk (part : String) : Prop :=
  part = "Not specified" ∨ ∃ n, numeral part = some n ∧ n.natAbs ≤ 2 ^ 31

def DefaultOk (text : String) : Prop :=
  DefaultPartOk (splitComma text).1 ∧ ∀ b, (splitComma text).2 = some b → DefaultPartOk b

/-- The defaults of the four change properties are such texts, those of the periods integers. -/
structure EventDefaultsOk (attr : AttrDesc) : Prop where
  change : ∀ p : ChangeProp, ∀ defaults ∈ [attr.classProperties,attr.userDefaultProperties],
    ∀ d, propInList p.name defaults = some d → DefaultOk d
  period : ∀ p : PeriodProp, ∀ defaults ∈ [attr.classProperties,attr.userDefaultProperties],
    ∀ d, propInList p.name defaults = some d → ∃ n, Denotes .devLong d n

section Defaults

theorem DefaultPartOk.partOk {part : String} (h : DefaultPartOk part) : PartOk part := by
  rcases h with rfl | h
  · exact .inl (.inl rfl)
  · exact .inr h

theorem DefaultOk.textOk (h : DefaultOk text) : TextOk text := ⟨h.1.partOk,fun b hb => (h.2 b hb).partOk⟩

theorem DefaultPartOk.asksUser {part : String} (h : DefaultPartOk part) : asksUser part = false := by
  rcases h with rfl | ⟨n,hn,-⟩
  · decide
  · rw [Bool.eq_false_iff]
    exact fun ha => numeral_not_keyword hn (asksUser_keyword ha)

/-- A default asks for no other default. -/
theorem DefaultOk.started (h : DefaultOk text) (usr : Option (Int × Int)) :
    startedBounds usr text = textBounds text := by
  have h2 : asksUserSecond text = false := by
    unfold asksUserSecond
    cases hb : (splitComma text).2 with
    | none => exact h.1.asksUser
    | some b =>
      refine decide_eq_false ?_
      rintro rfl
      rcases h.2 _ hb with he | ⟨n,hn,-⟩
      · exact absurd he (by decide)
      · exact numeral_not_keyword hn (.inr (.inl rfl))
  unfold startedBounds
  generalize textBounds text = b
  rw [h.1.asksUser,h2]
  rfl

variable (hd : EventDefaultsOk attr)
include hd

theorem EventDefaultsOk.user {d : String} (h : propInList p.name attr.userDefaultProperties = some d) : TextOk d :=
  (hd.change p _ (by simp) d h).textOk

theorem EventDefaultsOk.cls {d : String} (h : propInList p.name attr.classProperties = some d) : TextOk d :=
  (hd.change p _ (by simp) d h).textOk

end Defaults

section Set

/-- One threshold is the one asked for. -/
theorem selectValue_spec (part : String) {cls usr : Option D.Dbl} {c u : Option Int}
    (hc : Option.Rel D.IsInt cls c) (hu : Option.Rel D.IsInt usr u) {bringClassDef bringUsrDef : Bool} {x : D.Dbl}
    (hx : D.IsInt x n) (hkey : isKeyword part → n = intMax)
    (hclass : bringClassDef = decide (sameNoCase part "NaN"))
    (hempty : part = "" → bringUsrDef = true)
    (hplain : ¬ sameNoCase part "NaN" → part ≠ "" → bringUsrDef = false) :
    D.IsInt (selectValue cls usr bringClassDef bringUsrDef x) (askedPart c u part n) := by
  unfold selectValue askedPart
  by_cases h1 : sameNoCase part "NaN"
  · have hn := hkey (.inr (.inr h1))
    rw [if_pos h1,hclass,decide_eq_true h1]
    cases hc with
    | none =>
      cases hu with
      | none => exact hn ▸ hx
      | some hu => exact hu
    | some hc =>
      cases hu with
      | none => exact hc
      | some hu => exact hc
  · rw [if_neg h1,hclass,decide_eq_false h1]
    by_cases h2 : part = ""
    · have hn := hkey (.inr (.inl h2))
      rw [if_pos h2,hempty h2]
      cases hc with
      | none =>
        cases hu with
        | none => exact hn ▸ hx
        | some hu => exact hu
      | some hc =>
        cases hu with
        | none => exact hn ▸ hx
        | some hu => exact hu
    · rw [if_neg h2,hplain h1 h2]
      cases hc with
      | none => cases hu <;> exact hx
      | some hc => cases hu <;> exact hx

theorem rel_map {R : D.Dbl × D.Dbl → Int × Int → Prop} {f : D.Dbl × D.Dbl → D.Dbl} {g : Int × Int → Int}
    (h : ∀ x b, R x b → D.IsInt (f x) (g b)) {r : Option (D.Dbl × D.Dbl)} {o : Option (Int × Int)}
    (hr : Option.Rel R r o) : Option.Rel D.IsInt (r.map f) (o.map g) := by
  cases hr with
  | none => exact .none
  | some hr => exact .some (h _ _ hr)

variable (hD : D.PrintsIntegers) (hnum : ¬ noNumber attr.dataType) (hd : EventDefaultsOk attr)
include hD hnum hd

/-- What a request sets, and the work it leaves for the database. -/
theorem setOneEventProp_spec (hc : TextOk conf) (old : D.Dbl × D.Dbl) :
    ∃ new cls usr, setOneEventProp attr p conf old =
        (new,.ok (if D.eq old.1 new.1 && D.eq old.2 new.2 then [] else [⟨p.name,changeDb cls usr new⟩])) ∧
      Holds new (askedBounds attr p conf) ∧ Option.Rel Holds cls (defaultBounds p attr.classProperties) ∧
      Option.Rel Holds usr (defaultBounds p attr.userDefaultProperties) := by
  obtain ⟨usr,husr,hru⟩ := validateDefault_spec hD hnum (p := p) (fun d h => hd.user h)
  obtain ⟨cls,hcls,hrc⟩ := validateDefault_spec hD hnum (p := p) (fun d h => hd.cls h)
  obtain ⟨v,hv,hprop,hbu,hbc⟩ := validate_spec hD hnum p.name hc
  unfold setOneEventProp
  rw [husr,hcls,hv]
  have hbc1 : v.bringClassDef.1 = decide (sameNoCase (splitComma conf).1 "NaN") := by rw [hbc]
  have hbc2 : v.bringClassDef.2 =
      decide (sameNoCase ((splitComma conf).2.getD (splitComma conf).1) "NaN") := by rw [hbc]
  refine ⟨_,cls,usr,rfl,?_,hrc,hru⟩
  unfold Holds textBounds at hprop
  unfold Holds askedBounds
  dsimp only at hprop ⊢
  constructor
  · refine selectValue_spec (splitComma conf).1 (rel_map (fun _ _ h => h.1) hrc) (rel_map (fun _ _ h => h.1) hru)
      hprop.1 partLow_keyword hbc1 ?_ ?_
    · intro h
      rw [hbu]
      simp [asksUser,h]
    · intro h1 h2
      rw [hbu]
      simp [asksUser,h1,h2]
  · refine selectValue_spec ((splitComma conf).2.getD (splitComma conf).1) (rel_map (fun _ _ h => h.2) hrc)
      (rel_map (fun _ _ h => h.2) hru) hprop.2 partHigh_keyword hbc2 ?_ ?_
    · intro h
      rw [hbu]
      dsimp only
      unfold asksUserSecond
      cases hb : (splitComma conf).2 with
      | none =>
        rw [hb] at h
        simp [asksUser,show (splitComma conf).1 = "" from h]
      | some b =>
        rw [hb] at h
        exact decide_eq_true h
    · intro h1 h2
      rw [hbu]
      dsimp only
      unfold asksUserSecond
      cases hb : (splitComma conf).2 with
      | none =>
        rw [hb] at h1 h2
        have h1 : ¬ sameNoCase (splitComma conf).1 "NaN" := h1
        have h2 : (splitComma conf).1 ≠ "" := h2
        simp [asksUser,h1,h2]
      | some b =>
        rw [hb] at h2
        exact decide_eq_false h2

end Set

section Stored

/-- The thresholds of a property: the first one negative, the second one positive, where there is
one. -/
structure Shaped (b : Int × Int) : Prop where
  low : b.1 = intMax ∨ (b.1 < 0 ∧ -2 ^ 31 ≤ b.1)
  high : b.2 = intMax ∨ (0 < b.2 ∧ b.2 ≤ 2 ^ 31)

theorem partLow_shaped {part : String} (h : PartOk part) :
    partLow part = intMax ∨ (partLow part < 0 ∧ -2 ^ 31 ≤ partLow part) := by
  rcases h with hk | ⟨n,hn,hle⟩
  · exact .inl (partLow_keyword hk)
  · unfold partLow partNumber
    rw [hn]
    by_cases hc : n ≠ 0 ∧ n ≠ intMax
    · rw [Option.filter_some_pos (by simpa using hc)]
      dsimp only [Option.map_some,Option.getD_some]
      omega
    · rw [Option.filter_some_neg (by simpa using hc)]
      exact .inl rfl

theorem partHigh_shaped {part : String} (h : PartOk part) :
    partHigh part = intMax ∨ (0 < partHigh part ∧ partHigh part ≤ 2 ^ 31) := by
  rcases h with hk | ⟨n,hn,hle⟩
  · exact .inl (partHigh_keyword hk)
  · unfold partHigh partNumber
    rw [hn]
    by_cases hc : n ≠ 0 ∧ n ≠ intMax
    · rw [Option.filter_some_pos (by simpa using hc)]
      dsimp only [Option.map_some,Option.getD_some]
      omega
    · rw [Option.filter_some_neg (by simpa using hc)]
      exact .inl rfl

theorem TextOk.second (h : TextOk text) : PartOk ((splitComma text).2.getD (splitComma text).1) := by
  cases hb : (splitComma text).2 with
  | none => exact h.1
  | some b => exact h.2 b hb

theorem textBounds_shaped (h : TextOk text) : Shaped (textBounds text) := by
  unfold textBounds
  constructor
  · dsimp only
    exact partLow_shaped h.1
  · dsimp only
    exact partHigh_shaped h.second

theorem defaultBounds_shaped {defaults : List AttrProperty}
    (hd : ∀ d, propInList p.name defaults = some d → TextOk d) {b : Int × Int}
    (h : defaultBounds p defaults = some b) : Shaped b := by
  obtain ⟨d,hp,rfl⟩ := Option.map_eq_some_iff.mp h
  exact textBounds_shaped (hd d hp)

theorem askedPart_shaped {P : Int → Prop} {c u : Option Int} {part : String} (hmax : P intMax)
    (hc : ∀ n, c = some n → P n) (hu : ∀ n, u = some n → P n) (hn : P n) : P (askedPart c u part n) := by
  have hgetD : ∀ o : Option Int, (∀ n, o = some n → P n) → P (o.getD intMax) := by
    intro o ho
    cases o with
    | none => exact hmax
    | some m => exact ho m rfl
  unfold askedPart
  split
  next =>
    refine hgetD _ (fun m hm => ?_)
    rcases Option.or_eq_some_iff.mp hm with h | ⟨-,h⟩
    · exact hc m h
    · exact hu m h
  next =>
    split
    next => exact hgetD _ hu
    next => exact hn

theorem askedBounds_shaped (hd : EventDefaultsOk attr) (hc : TextOk conf) : Shaped (askedBounds attr p conf) := by
  have hcls : ∀ b, defaultBounds p attr.classProperties = some b → Shaped b :=
    fun b h => defaultBounds_shaped (fun d hd' => hd.cls hd') h
  have husr : ∀ b, defaultBounds p attr.userDefaultProperties = some b → Shaped b :=
    fun b h => defaultBounds_shaped (fun d hd' => hd.user hd') h
  unfold askedBounds
  constructor
  · dsimp only
    refine askedPart_shaped (P := fun n => n = intMax ∨ (n < 0 ∧ -2 ^ 31 ≤ n)) (.inl rfl) ?_ ?_
      (partLow_shaped hc.1)
    · intro n h
      obtain ⟨b,hb,rfl⟩ := Option.map_eq_some_iff.mp h
      exact (hcls b hb).low
    · intro n h
      obtain ⟨b,hb,rfl⟩ := Option.map_eq_some_iff.mp h
      exact (husr b hb).low
  · dsimp only
    refine askedPart_shaped (P := fun n => n = intMax ∨ (0 < n ∧ n ≤ 2 ^ 31)) (.inl rfl) ?_ ?_
      (partHigh_shaped hc.second)
    · intro n h
      obtain ⟨b,hb,rfl⟩ := Option.map_eq_some_iff.mp h
      exact (hcls b hb).high
    · intro n h
      obtain ⟨b,hb,rfl⟩ := Option.map_eq_some_iff.mp h
      exact (husr b hb).high

variable {b : Int × Int} {x y : String}

theorem Shaped.abs (h : Shaped b) : b.1.natAbs ≤ 2 ^ 31 ∧ b.2.natAbs ≤ 2 ^ 31 := by
  have h1 := h.low
  have h2 := h.high
  unfold intMax at h1 h2
  omega

/-- Without two different thresholds there are none. -/
theorem Shaped.equal (h : Shaped b) (he : b.1 = b.2) : b = (intMax,intMax) := by
  have h1 := h.low
  have h2 := h.high
  have hmax : (0 : Int) < intMax := by decide
  have h3 : b.1 = intMax := by omega
  exact Prod.ext h3 (he ▸ h3)

/-- A threshold written as a number is read as the same. -/
theorem Shaped.partLow (h : Shaped b) (hx : numeral x = some b.1) : Conf.partLow x = b.1 := by
  unfold Conf.partLow partNumber
  rw [hx]
  rcases h.low with he | ⟨hneg,-⟩
  · rw [Option.filter_some_neg (by simp [he])]
    exact he.symm
  · have hne : b.1 ≠ intMax := by
      have hmax : (0 : Int) < intMax := by decide
      omega
    rw [Option.filter_some_pos (by simp [hne]; omega)]
    dsimp only [Option.map_some,Option.getD_some]
    omega

theorem Shaped.partHigh (h : Shaped b) (hx : numeral x = some b.2) : Conf.partHigh x = b.2 := by
  unfold Conf.partHigh partNumber
  rw [hx]
  by_cases he : b.2 = intMax
  · rw [Option.filter_some_neg (by simp [he])]
    exact he.symm
  · have hpos := (h.high.resolve_left he).1
    rw [Option.filter_some_pos (by simp [he]; omega)]
    dsimp only [Option.map_some,Option.getD_some]
    omega

theorem numeral_asks (h : numeral x = some n) : asksUser x = false := by
  rw [Bool.eq_false_iff]
  exact fun ha => numeral_not_keyword h (asksUser_keyword ha)

theorem numeral_not_empty (h : numeral x = some n) : x ≠ "" := by
  rintro rfl
  exact numeral_not_keyword h (.inr (.inl rfl))

theorem textOk_join (h : ',' ∉ x.toList) (hx : PartOk x) (hy : PartOk y) : TextOk (x ++ "," ++ y) := by
  unfold TextOk
  rw [splitComma_join h]
  refine ⟨hx,?_⟩
  rintro _ ⟨⟩
  exact hy

theorem startedBounds_join (h : ',' ∉ x.toList) (hy : y ≠ "") (usr : Option (Int × Int)) :
    startedBounds usr (x ++ "," ++ y) =
      (if asksUser x then (usr.map Prod.fst).getD intMax else Conf.partLow x,Conf.partHigh y) := by
  unfold startedBounds asksUserSecond textBounds
  rw [splitComma_join h]
  simp [hy]

/-- Two numbers. -/
theorem values_read (hs : Shaped b) (hx : numeral x = some b.1) (hy : numeral y = some b.2)
    (usr : Option (Int × Int)) : TextOk (x ++ "," ++ y) ∧ startedBounds usr (x ++ "," ++ y) = b := by
  have hc := numeral_no_comma hx
  refine ⟨textOk_join hc (.inr ⟨_,hx,hs.abs.1⟩) (.inr ⟨_,hy,hs.abs.2⟩),?_⟩
  rw [startedBounds_join hc (numeral_not_empty hy),numeral_asks hx,hs.partLow hx,hs.partHigh hy]
  rfl

/-- The mark in the first place is read as the user default. -/
theorem first_mark_read (hs : Shaped b) (hy : numeral y = some b.2) (usr : Option (Int × Int)) :
    TextOk ("NaN" ++ "," ++ y) ∧
      startedBounds usr ("NaN" ++ "," ++ y) = ((usr.map Prod.fst).getD intMax,b.2) := by
  have hc : ',' ∉ "NaN".toList := by decide
  have ha : asksUser "NaN" = true := by decide
  refine ⟨textOk_join hc (.inl (by decide)) (.inr ⟨_,hy,hs.abs.2⟩),?_⟩
  rw [startedBounds_join hc (numeral_not_empty hy),ha,hs.partHigh hy]
  rfl

/-- In the second place it is read as no threshold. -/
theorem second_mark_read (hs : Shaped b) (hx : numeral x = some b.1) (usr : Option (Int × Int)) :
    TextOk (x ++ "," ++ "NaN") ∧ startedBounds usr (x ++ "," ++ "NaN") = (b.1,intMax) := by
  have hc := numeral_no_comma hx
  have hk : isKeyword "NaN" := by decide
  refine ⟨textOk_join hc (.inr ⟨_,hx,hs.abs.1⟩) (.inl hk),?_⟩
  rw [startedBounds_join hc (by decide),numeral_asks hx,hs.partLow hx,partHigh_keyword hk]
  rfl

theorem unset_read (hx : numeral x = some intMax) (usr : Option (Int × Int)) :
    TextOk x ∧ startedBounds usr x = (intMax,intMax) := by
  have hs : Shaped (intMax,intMax) := ⟨.inl rfl,.inl rfl⟩
  have hsplit := splitComma_one (numeral_no_comma hx)
  constructor
  · unfold TextOk
    rw [hsplit]
    exact ⟨.inr ⟨_,hx,by decide⟩,fun _ h => nomatch h⟩
  · unfold startedBounds asksUserSecond textBounds
    rw [hsplit]
    simp [numeral_asks hx,hs.partLow hx,hs.partHigh hx]

end Stored

section Restart
variable {b c : Int × Int} {x y : D.Dbl × D.Dbl}
variable (hD : D.PrintsIntegers) (hnum : ¬ noNumber attr.dataType) (hd : EventDefaultsOk attr)
include hD hnum hd

/-- A start after a text was stored. -/
theorem initChange_upd {dba : PropDba D} (h : dba.action = .upd text) (ht : TextOk text)
    (hb : startedBounds (defaultBounds p attr.userDefaultProperties) text = b) :
    Holds (initChange D attr (updAttDatabase [⟨p.name,dba⟩] db) p) b := by
  unfold initChange
  rw [startProp_one,if_pos rfl,h]
  dsimp only
  rw [if_neg hnum,← hb]
  exact startBounds_spec hD hnum ht (fun d h => hd.user h)

/-- A start after the property was deleted. -/
theorem initChange_del (db : List AttrProperty) : Holds (initChange D attr (updAttDatabase (D := D) [⟨p.name,.del⟩] db) p)
    (((defaultBounds p attr.classProperties).or (defaultBounds p attr.userDefaultProperties)).getD
      (intMax,intMax)) := by
  have hone : ∀ defaults ∈ [attr.classProperties,attr.userDefaultProperties], ∀ d,
      propInList p.name defaults = some d → Holds (startBounds D attr p d) (textBounds d) := by
    intro defaults hm d h
    have hok := hd.change p defaults hm d h
    rw [← hok.started (defaultBounds p attr.userDefaultProperties)]
    exact startBounds_spec hD hnum hok.textOk (fun d h => hd.user h)
  unfold initChange defaultBounds
  rw [startProp_one,if_pos rfl]
  unfold defaultProp
  dsimp only [PropDba.action]
  cases hcl : propInList p.name attr.classProperties with
  | some d =>
    dsimp only [Option.some_or]
    rw [if_neg hnum]
    exact hone _ (by simp) d hcl
  | none =>
    cases hu : propInList p.name attr.userDefaultProperties with
    | some d =>
      dsimp only [Option.none_or]
      rw [if_neg hnum]
      exact hone _ (by simp) d hu
    | none => exact holds_unset

/-- A start after `event_prop_db_xxx`. -/
theorem eventPropDb_read (hs : Shaped b) (hx : Holds x b) (hy : Holds y c)
    (hdel : ((defaultBounds p attr.classProperties).or (defaultBounds p attr.userDefaultProperties)) = some c)
    (h1 : b.1 = c.1 ∧ b.2 ≠ c.2 → c.1 = ((defaultBounds p attr.userDefaultProperties).map Prod.fst).getD intMax)
    (h2 : b.1 ≠ c.1 ∧ b.2 = c.2 → c.2 = intMax) :
    Holds (initChange D attr (updAttDatabase [⟨p.name,eventPropDb x y⟩] db) p) b := by
  have hp1 := hD.print _ _ hx.1 hs.abs.1
  have hp2 := hD.print _ _ hx.2 hs.abs.2
  have he1 := D.eq_iff _ _ _ _ hx.1 hy.1
  have he2 := D.eq_iff _ _ _ _ hx.2 hy.2
  unfold eventPropDb
  cases hc1 : D.eq x.1 y.1 with
  | true =>
    have hb1 := he1.mp hc1
    cases hc2 : D.eq x.2 y.2 with
    | true =>
      have h := initChange_del (p := p) hD hnum hd db
      rw [hdel] at h
      exact (Prod.ext hb1 (he2.mp hc2) : b = c) ▸ h
    | false =>
      have hb2 : b.2 ≠ c.2 := fun h => absurd (he2.mpr h) (by rw [hc2]; decide)
      obtain ⟨hok,hread⟩ := first_mark_read hs hp2 (defaultBounds p attr.userDefaultProperties)
      refine initChange_upd hD hnum hd rfl hok (hread.trans ?_)
      rw [← h1 ⟨hb1,hb2⟩,← hb1]
  | false =>
    have hb1 : b.1 ≠ c.1 := fun h => absurd (he1.mpr h) (by rw [hc1]; decide)
    cases hc2 : D.eq x.2 y.2 with
    | true =>
      have hb2 := he2.mp hc2
      obtain ⟨hok,hread⟩ := second_mark_read hs hp1 (defaultBounds p attr.userDefaultProperties)
      refine initChange_upd hD hnum hd rfl hok (hread.trans ?_)
      rw [← h2 ⟨hb1,hb2⟩,← hb2]
    | false =>
      obtain ⟨hok,hread⟩ := values_read hs hp1 hp2 (defaultBounds p attr.userDefaultProperties)
      exact initChange_upd hD hnum hd rfl hok hread

/-- A start after a request. -/
theorem changeDb_read {cls usr : Option (D.Dbl × D.Dbl)} (hs : Shaped b) (hx : Holds x b)
    (hcls : Option.Rel Holds cls (defaultBounds p attr.classProperties))
    (husr : Option.Rel Holds usr (defaultBounds p attr.userDefaultProperties))
    (hm : b.1 = b.2 ∨ MarkRead (defaultBounds p attr.classProperties) (defaultBounds p attr.userDefaultProperties) b) :
    Holds (initChange D attr (updAttDatabase [⟨p.name,changeDb cls usr x⟩] db) p) b := by
  have hp1 := hD.print _ _ hx.1 hs.abs.1
  have hp2 := hD.print _ _ hx.2 hs.abs.2
  have heq := D.eq_iff _ _ _ _ hx.1 hx.2
  unfold changeDb
  split
  next he =>
    have hb := hs.equal (heq.mp he)
    subst hb
    rw [if_pos ((D.eq_iff _ _ _ _ hx.1 isInt_intMax).mpr rfl)]
    split
    next =>
      obtain ⟨hok,hread⟩ := unset_read hp1 (defaultBounds p attr.userDefaultProperties)
      exact initChange_upd hD hnum hd rfl hok hread
    next hn =>
      have h := initChange_del (p := p) hD hnum hd db
      simp only [not_or,Option.not_isSome_iff_eq_none] at hn
      obtain ⟨rfl,rfl⟩ := hn
      generalize defaultBounds p attr.classProperties = c at h hcls
      generalize defaultBounds p attr.userDefaultProperties = u at h husr
      cases hcls
      cases husr
      exact h
  next he =>
    have hm := hm.resolve_left (fun h => he (heq.mpr h))
    cases hcl : defaultBounds p attr.classProperties with
    | some c =>
      rw [hcl] at hcls hm
      cases hcls with
      | some hc => exact eventPropDb_read hD hnum hd hs hx hc (by rw [hcl]; rfl) hm.1 hm.2
    | none =>
      rw [hcl] at hcls hm
      cases hcls
      cases hu : defaultBounds p attr.userDefaultProperties with
      | some u =>
        rw [hu] at husr hm
        cases husr with
        | some hu' =>
          exact eventPropDb_read hD hnum hd hs hx hu' (by rw [hcl,hu]; rfl) (by rw [hu]; exact fun _ => rfl) hm
      | none =>
        rw [hu] at husr
        cases husr
        obtain ⟨hok,hread⟩ := values_read hs hp1 hp2 (defaultBounds p attr.userDefaultProperties)
        exact initChange_upd hD hnum hd rfl hok hread

end Restart

end CppTango.Device.Conf
