import CppTango.Device.ConfRestart

namespace CppTango.Device.Conf

open CppTango.Lib StrProps

variable {D : Doubles} {attr : AttrDesc} {part text : String} {n : Int}

/-- The magnitude of an integer, and an integer as `str << db` writes it. -/
structure Doubles.PrintsIntegers (D : Doubles) : Prop where
  fabs : ∀ x n, D.IsInt x n → D.IsInt (D.fabs x) n.natAbs
  print : ∀ x n, D.IsInt x n → n.natAbs ≤ 2 ^ 31 → numeral (D.print x) = some n

/-- A part of a change property: a keyword or an integer. -/
def PartOk (part : String) : Prop := isKeyword part ∨ ∃ n, numeral part = some n ∧ n.natAbs ≤ 2 ^ 31

def TextOk (text : String) : Prop := PartOk (splitComma text).1 ∧ ∀ b, (splitComma text).2 = some b → PartOk b

/-- Two thresholds are these integers. -/
def Holds (x : D.Dbl × D.Dbl) (b : Int × Int) : Prop := D.IsInt x.1 b.1 ∧ D.IsInt x.2 b.2

section Integers

theorem textBounds_fst : (textBounds text).1 = partLow (splitComma text).1 := by unfold textBounds; rfl

theorem textBounds_snd : (textBounds text).2 = partHigh ((splitComma text).2.getD (splitComma text).1) := by
  unfold textBounds; rfl

theorem isInt_intMax : D.IsInt (D.ofInt intMax) intMax := D.isInt_ofInt _ (by decide)

theorem holds_unset : Holds (D := D) (D.ofInt intMax,D.ofInt intMax) (intMax,intMax) :=
  ⟨isInt_intMax,isInt_intMax⟩

theorem partNumber_keyword (h : isKeyword part) : partNumber part = none := by
  unfold partNumber
  cases hn : numeral part with
  | none => rfl
  | some n => exact absurd h (numeral_not_keyword hn)

theorem partLow_keyword (h : isKeyword part) : partLow part = intMax := by
  unfold partLow
  rw [partNumber_keyword h]
  rfl

theorem partHigh_keyword (h : isKeyword part) : partHigh part = intMax := by
  unfold partHigh
  rw [partNumber_keyword h]
  rfl

end Integers

section Validate
variable (hD : D.PrintsIntegers) (hnum : ¬ noNumber attr.dataType) (name : String)
include hD hnum

theorem readChange_spec (h : numeral part = some n) (hn : n.natAbs ≤ 2 ^ 31) :
    ∃ r, readChange D attr name part = .ok r ∧
      match partNumber part with
      | none => r = none
      | some m => ∃ x, r = some x ∧ D.IsInt x m.natAbs := by
  have hread := D.read_numeral part n h (by omega)
  have habs := hD.fabs _ _ hread.2
  have hlt : D.lt (D.ofInt 0) (D.fabs (D.read part).1) = true ↔ n ≠ 0 := by
    rw [D.lt_iff _ _ _ _ (D.isInt_ofInt 0 (by decide)) habs]
    omega
  have heq : D.eq (D.read part).1 (D.ofInt intMax) = false ↔ n ≠ intMax := by
    rw [Bool.eq_false_iff,ne_eq,D.eq_iff _ _ _ _ hread.2 isInt_intMax]
  unfold readChange partNumber
  rw [if_pos hread.1,h]
  by_cases hc : n ≠ 0 ∧ n ≠ intMax
  · have hf : Option.filter (fun n : Int => decide (n ≠ 0 ∧ n ≠ intMax)) (some n) = some n :=
      Option.filter_some_pos (by simpa using hc)
    rw [if_pos ⟨hlt.mpr hc.1,heq.mpr hc.2⟩,if_neg hnum,hf]
    exact ⟨_,rfl,_,rfl,habs⟩
  · rw [if_neg (fun h => hc ⟨hlt.mp h.1,heq.mp h.2⟩),Option.filter_some_neg (by simpa using hc)]
    exact ⟨_,rfl,rfl⟩

omit hD hnum in
/-- A part that asks for the user default. -/
def asksUser (part : String) : Bool := sameNoCase part "NaN" || part = ""

theorem validateMin_spec (hp : PartOk part) :
    ∃ v, validateMin D attr name part = .ok v ∧ Holds v.prop (partLow part,partHigh part) ∧
      v.bringUsrDef = (asksUser part,asksUser part) ∧
      v.bringClassDef = (decide (sameNoCase part "NaN"),decide (sameNoCase part "NaN")) := by
  have hkey : isKeyword part → Holds (D := D) (D.ofInt intMax,D.ofInt intMax) (partLow part,partHigh part) := by
    intro hk
    rw [partLow_keyword hk,partHigh_keyword hk]
    exact holds_unset
  unfold validateMin asksUser
  dsimp only
  split
  next h =>
    obtain ⟨h1,h2⟩ := notSpecified_excludes h
    exact ⟨_,rfl,hkey (.inl h),by simp [h1,h2],by simp [h1]⟩
  next h1 =>
    split
    next h => exact ⟨_,rfl,hkey (.inr (.inr h)),by simp [h],by simp [h]⟩
    next h2 =>
      split
      next h => exact ⟨_,rfl,hkey (.inr (.inl h)),by simp [h],by simp [h2]⟩
      next h3 =>
        obtain ⟨n,hn,hle⟩ := hp.resolve_left (fun hk => hk.elim h1 (fun hk => hk.elim h3 h2))
        obtain ⟨r,hr,hpart⟩ := readChange_spec hD hnum name hn hle
        rw [hr]
        refine ⟨_,rfl,?_,by simp [h2,h3],by simp [h2]⟩
        unfold partLow partHigh
        cases hpn : partNumber part with
        | none =>
          rw [hpn] at hpart
          rw [hpart]
          exact holds_unset
        | some m =>
          rw [hpn] at hpart
          obtain ⟨x,rfl,hx⟩ := hpart
          exact ⟨D.isInt_neg _ _ hx,hx⟩

theorem validateMax_spec (hp : PartOk part) (v : Validated D) :
    ∃ w, validateMax D attr name part v = .ok w ∧ w.prop.1 = v.prop.1 ∧ D.IsInt w.prop.2 (partHigh part) ∧
      w.bringUsrDef = (v.bringUsrDef.1,decide (part = "")) ∧
      w.bringClassDef = (v.bringClassDef.1,decide (sameNoCase part "NaN")) := by
  have hkey : isKeyword part → D.IsInt (D.ofInt intMax) (partHigh part) := by
    intro hk
    rw [partHigh_keyword hk]
    exact isInt_intMax
  unfold validateMax
  dsimp only
  split
  next h =>
    obtain ⟨h1,h2⟩ := notSpecified_excludes h
    exact ⟨_,rfl,rfl,hkey (.inl h),by simp [h2],by simp [h1]⟩
  next h1 =>
    split
    next h =>
      obtain ⟨-,h2,-⟩ := nan_excludes h
      exact ⟨_,rfl,rfl,hkey (.inr (.inr h)),by simp [h2],by simp [h]⟩
    next h2 =>
      split
      next h => exact ⟨_,rfl,rfl,hkey (.inr (.inl h)),by simp [h],by simp [h2]⟩
      next h3 =>
        obtain ⟨n,hn,hle⟩ := hp.resolve_left (fun hk => hk.elim h1 (fun hk => hk.elim h3 h2))
        obtain ⟨r,hr,hpart⟩ := readChange_spec hD hnum name hn hle
        rw [hr]
        refine ⟨_,rfl,rfl,?_,by simp [h3],by simp [h2]⟩
        unfold partHigh
        cases hpn : partNumber part with
        | none =>
          rw [hpn] at hpart
          rw [hpart]
          exact isInt_intMax
        | some m =>
          rw [hpn] at hpart
          obtain ⟨x,rfl,hx⟩ := hpart
          exact hx

omit hD hnum in
/-- Whether the second threshold asks for the user default. -/
def asksUserSecond (text : String) : Bool :=
  match (splitComma text).2 with
  | none => asksUser (splitComma text).1
  | some b => b = ""

/-- What a text stands for, with the requests for the defaults. -/
theorem validate_spec (ht : TextOk text) :
    ∃ v, validateChangeProperties D attr name text = .ok v ∧ Holds v.prop (textBounds text) ∧
      v.bringUsrDef = (asksUser (splitComma text).1,asksUserSecond text) ∧
      v.bringClassDef = (decide (sameNoCase (splitComma text).1 "NaN"),
        decide (sameNoCase ((splitComma text).2.getD (splitComma text).1) "NaN")) := by
  obtain ⟨v,hv,hprop,husr,hcls⟩ := validateMin_spec hD hnum name ht.1
  unfold validateChangeProperties textBounds asksUserSecond
  rw [hv]
  cases hb : (splitComma text).2 with
  | none => exact ⟨v,rfl,hprop,husr,hcls⟩
  | some b =>
    obtain ⟨w,hw,h1,h2,h3,h4⟩ := validateMax_spec hD hnum name (ht.2 b hb) v
    rw [husr] at h3
    rw [hcls] at h4
    refine ⟨w,hw,⟨h1 ▸ hprop.1,h2⟩,?_,?_⟩
    · rw [h3]
    · rw [h4,Option.getD_some]

theorem validateDefault_spec {p : ChangeProp} {defaults : List AttrProperty}
    (hd : ∀ d, propInList p.name defaults = some d → TextOk d) :
    ∃ r, validateDefault D attr p.name defaults = .ok r ∧ Option.Rel Holds r (defaultBounds p defaults) := by
  unfold validateDefault defaultBounds
  cases hp : propInList p.name defaults with
  | none => exact ⟨none,rfl,.none⟩
  | some d =>
    obtain ⟨v,hv,hprop,-⟩ := validate_spec hD hnum p.name (hd d hp)
    dsimp only
    rw [hv]
    exact ⟨some v.prop,rfl,.some hprop⟩

omit hD hnum in
theorem asksUser_keyword (h : asksUser part = true) : isKeyword part := by
  unfold asksUser at h
  simp only [Bool.or_eq_true,decide_eq_true_eq] at h
  exact h.elim (fun h => .inr (.inr h)) (fun h => .inr (.inl h))

omit hD hnum in
theorem asksUserSecond_keyword (h : asksUserSecond text = true) :
    isKeyword ((splitComma text).2.getD (splitComma text).1) := by
  unfold asksUserSecond at h
  cases hb : (splitComma text).2 with
  | none =>
    rw [hb] at h
    exact asksUser_keyword h
  | some b =>
    rw [hb] at h
    exact .inr (.inl (of_decide_eq_true h))

omit hD hnum in
/-- The thresholds of a text at a start. -/
def startedBounds (usr : Option (Int × Int)) (text : String) : Int × Int :=
  (if asksUser (splitComma text).1 then (usr.map Prod.fst).getD intMax else (textBounds text).1,
    if asksUserSecond text then (usr.map Prod.snd).getD intMax else (textBounds text).2)

theorem startBounds_spec {p : ChangeProp} (ht : TextOk text)
    (hd : ∀ d, propInList p.name attr.userDefaultProperties = some d → TextOk d) :
    Holds (startBounds D attr p text)
      (startedBounds (defaultBounds p attr.userDefaultProperties) text) := by
  obtain ⟨v,hv,hprop,husr,-⟩ := validate_spec hD hnum p.name ht
  obtain ⟨r,hr,hrel⟩ := validateDefault_spec hD hnum hd
  have h1 : asksUser (splitComma text).1 = true → (textBounds text).1 = intMax :=
    fun h => textBounds_fst.trans (partLow_keyword (asksUser_keyword h))
  have h2 : asksUserSecond text = true → (textBounds text).2 = intMax :=
    fun h => textBounds_snd.trans (partHigh_keyword (asksUserSecond_keyword h))
  generalize defaultBounds p attr.userDefaultProperties = usr at hrel ⊢
  unfold startBounds startedBounds
  rw [hv,hr]
  dsimp only
  rw [husr]
  dsimp only
  split
  next =>
    cases hrel with
    | none =>
      refine ⟨?_,?_⟩
      · dsimp only
        split
        next h => exact h1 h ▸ hprop.1
        next => exact hprop.1
      · dsimp only
        split
        next h => exact h2 h ▸ hprop.2
        next => exact hprop.2
    | some hu =>
      refine ⟨?_,?_⟩
      · dsimp only
        split
        next => exact hu.1
        next => exact hprop.1
      · dsimp only
        split
        next => exact hu.2
        next => exact hprop.2
  next h =>
    simp only [Bool.or_eq_true,not_or,Bool.not_eq_true] at h
    rw [h.1,h.2]
    exact hprop

end Validate

section Texts
variable {x y : String}

theorem splitComma_one (h : ',' ∉ x.toList) : splitComma x = (x,none) := by
  have hc : ∀ c ∈ x.toList, decide (c ≠ ',') = true := fun c hm =>
    decide_eq_true (fun he => h (he ▸ hm))
  unfold splitComma
  rw [List.takeWhile_eq_self_iff.mpr hc,if_neg h,String.ofList_toList]

/-- Splitting takes a joined text apart again. -/
theorem splitComma_join (h : ',' ∉ x.toList) : splitComma (x ++ "," ++ y) = (x,some y) := by
  have hc : ∀ c ∈ x.toList, decide (c ≠ ',') = true := fun c hm =>
    decide_eq_true (fun he => h (he ▸ hm))
  have hl : (x ++ "," ++ y).toList = x.toList ++ ',' :: y.toList := by simp
  unfold splitComma
  rw [hl,List.takeWhile_append_of_pos hc,List.dropWhile_append_of_pos hc,if_pos (by simp)]
  simp

theorem numeral_no_comma (h : numeral x = some n) : ',' ∉ x.toList :=
  fun hm => absurd ((numeral_chars h).2 ',' hm) (by decide)

end Texts

end CppTango.Device.Conf
