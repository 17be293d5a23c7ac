import CppTango.Device.ConfRanges

namespace CppTango.Device.Conf

open CppTango.Lib StrProps

variable {D : Doubles} {attr : AttrDesc} {t : AttrType} {n m : Int} {text conf : String}

/-- The types with integer bounds. -/
def hasBounds (t : AttrType) : Prop := isInteger t ∨ t = .devEncoded

instance (t : AttrType) : Decidable (hasBounds t) := inferInstanceAs (Decidable (_ ∨ _))

/-- The text is a decimal integer that the type and a double both hold. -/
structure Denotes (t : AttrType) (text : String) (n : Int) : Prop where
  numeral : numeral text = some n
  fits : fits t n
  exact : n.natAbs ≤ 2 ^ 53

/-- A text of a property: a number, or not specified. -/
def Means (t : AttrType) (text : String) : Option Int → Prop
  | none => text = "Not specified"
  | some n => Denotes t text n

section Numbers

theorem Denotes.ne_notSpecified (h : Denotes t text n) : text ≠ "Not specified" := by
  rintro rfl
  have hn : Conf.numeral "Not specified" = none := by decide
  cases hn.symm.trans h.numeral

theorem Means.unique {o o' : Option Int} (h : Means t text o) (h' : Means t text o') : o = o' := by
  cases o with
  | none =>
    cases o' with
    | none => rfl
    | some n => exact absurd h h'.ne_notSpecified
  | some n =>
    cases o' with
    | none => exact absurd h' h.ne_notSpecified
    | some m => exact h.numeral.symm.trans h'.numeral

theorem Means.eq_none {o : Option Int} (h : Means t text o) (ht : text = "Not specified") : o = none :=
  Means.unique h (show Means t text none from ht)

theorem Means.eq_some {o : Option Int} (h : Means t text o) (hn : Denotes t text n) : o = some n :=
  Means.unique h (show Means t text (some n) from hn)

theorem Means.some_of_ne {o : Option Int} (h : Means t text o) (hne : text ≠ "Not specified") :
    ∃ n, o = some n ∧ Denotes t text n := by
  cases o with
  | none => exact absurd h hne
  | some n => exact ⟨n,rfl,h⟩

theorem Denotes.not_keyword (h : Denotes t text n) : ¬ isKeyword text :=
  numeral_not_keyword h.numeral

/-- A keyword is no number and so no default. -/
theorem keyword_ne (h : isKeyword conf) {d : String} (hd : Denotes t d n) : conf ≠ d := by
  rintro rfl
  exact hd.not_keyword h

/-- Numerals have no letters, so that they differ also without regard to case. -/
theorem Denotes.sameNoCase_iff {t' : AttrType} {other : String} (h : Denotes t text n)
    (h' : Denotes t' other m) : sameNoCase text other ↔ text = other := by
  unfold sameNoCase
  rw [lower_numeral h.numeral,lower_numeral h'.numeral]
  exact String.toList_inj

theorem Denotes.not_sameNoCase (h : Denotes t text n) {word : String}
    (hw : 'n' ∈ lowerName word) : ¬ sameNoCase text word := by
  intro hs
  have hm : 'n' ∈ text.toList := by
    rw [← lower_numeral h.numeral]
    exact hs ▸ hw
  exact absurd ((numeral_chars h.numeral).2 'n' hm) (by decide)

theorem denotes_intString (hf : fits t n) (he : n.natAbs ≤ 2 ^ 53) : Denotes t (intString n) n :=
  ⟨numeral_intString n,hf,he⟩

theorem Denotes.read (h : Denotes t text n) : (D.read text).2 = true ∧ D.IsInt (D.read text).1 n :=
  D.read_numeral text n h.numeral h.exact

/-- The unsigned types hold no number that would lose its sign. -/
theorem castTo_isInt (ht : hasBounds t) {x : D.Dbl} (h : D.IsInt x n) (hf : fits t n) :
    castTo D t x = .int n := by
  have hc := D.cast_isInt t x n h hf
  have hsign : 0 ≤ n → D.lt x (D.ofInt 0) = false := by
    intro h0
    rw [Bool.eq_false_iff]
    intro hlt
    have := (D.lt_iff _ _ _ _ h (D.isInt_ofInt 0 (by decide))).mp hlt
    omega
  obtain ⟨b,hb,hlo,-⟩ := hf
  cases t <;> first
    | exact congrArg CheckVal.int hc
    | exact absurd ht (by decide)
    | (cases hb
       simp only [castTo,hsign hlo,Bool.false_eq_true,if_false,hc])

theorem castTo_denotes (ht : hasBounds t) (h : Denotes t text n) :
    castTo D t (D.read text).1 = .int n := castTo_isInt ht h.read.2 h.fits

theorem typedText_denotes (ht : hasBounds t) (h : Denotes t text n) :
    typedText D t text (D.read text).1 = intString n := by
  unfold typedText
  rw [castTo_denotes ht h]

theorem equalDef_iff (ht : hasBounds t) (h : Denotes t conf n) {d : String} (hd : Denotes t d m) :
    equalDef D t conf (some d) = true ↔ n = m := by
  have hc : D.IsInt (D.ofInt (D.cast t (D.read conf).1)) n := by
    rw [D.cast_isInt t _ n h.read.2 h.fits]
    exact D.isInt_ofInt n h.exact
  have he := D.eq_iff _ _ _ _ hc hd.read.2
  cases t <;> first
    | exact absurd ht (by decide)
    | (simp only [equalDef,h.read.1,Bool.true_and]
       exact he)

/-- A numeral starts with no white space. -/
theorem dropWhile_numeral (h : numeral text = some n) :
    text.toList.dropWhile isSpace = text.toList := by
  cases hl : text.toList with
  | nil => rfl
  | cons c cs =>
    have hc : isSpace c = false := by
      unfold numeral at h
      rw [hl] at h
      split at h
      next heq =>
        cases heq
        rfl
      next heq =>
        cases heq
        rfl
      next =>
        unfold numeral.digits at h
        split at h
        next hd =>
          have := hd.2
          rw [List.all_cons,Bool.and_eq_true] at this
          exact (digit_not_space this.1).1
        next => cases h
    exact List.dropWhile_cons_of_neg (by simp [hc])

theorem readSignedEnd_numeral {w : Nat} (h : numeral text = some n)
    (hr : -2 ^ (w-1) ≤ n ∧ n < 2 ^ (w-1)) : readSignedEnd w text = some n := by
  unfold readSignedEnd
  rw [dropWhile_numeral h,String.ofList_toList,h]
  exact Option.filter_some_pos (decide_eq_true hr)

theorem readUnsignedEnd_numeral {w : Nat} (h : numeral text = some n) (h0 : 0 ≤ n)
    (hr : n < 2 ^ w) : readUnsignedEnd w text = some n := by
  have hr' : n.natAbs < 2 ^ w := by
    have hc : ((2 ^ w : Nat) : Int) = 2 ^ w := by simp
    omega
  unfold readUnsignedEnd
  rw [dropWhile_numeral h,String.ofList_toList,h,
    Option.filter_some_pos (p := fun n : Int => decide (n.natAbs < 2 ^ w)) (decide_eq_true hr')]
  exact congrArg some (Int.emod_eq_of_lt h0 hr)

/-- A number in the database is what a restart takes it for. -/
theorem initCheckValProp_denotes (ht : hasBounds t) (h : Denotes t text n) :
    initCheckValProp D t text = some (.int n) := by
  have hcast := D.cast_isInt t _ n h.read.2 h.fits
  obtain ⟨b,hb,hlo,hhi⟩ := h.fits
  cases t <;> first | exact absurd ht (by decide) | cases hb
  case devShort =>
    dsimp only [initCheckValProp]
    rw [readSignedEnd_numeral h.numeral ⟨hlo,hhi⟩]
    rfl
  case devUShort =>
    dsimp only [initCheckValProp]
    rw [readUnsignedEnd_numeral h.numeral hlo hhi]
    rfl
  case devUChar | devEncoded =>
    have hs : -2 ^ (16-1) ≤ n ∧ n < 2 ^ (16-1) := by
      dsimp only at hlo hhi
      omega
    dsimp only [initCheckValProp]
    rw [readSignedEnd_numeral h.numeral hs,Option.map_some,Int.emod_eq_of_lt hlo hhi]
  all_goals
    simp only [initCheckValProp,h.read.1,if_true,hcast]

end Numbers

section Database
variable {p q : RangeProp}

theorem rangeName_injective (h : p.name = q.name) : p = q := by
  cases p <;> cases q <;> first | rfl | exact absurd h (by decide)

/-- The text a restart finds without a property of the device. -/
def fallbackText (attr : AttrDesc) (p : RangeProp) : String :=
  ((p.classDef attr).or (p.userDef attr)).getD "Not specified"

theorem restartText_eq (db : List AttrProperty) :
    restartText attr p db = (propInList p.name db).getD (fallbackText attr p) := by
  have hl : propInList p.name (addUserDefault (concat db attr.classProperties) attr.userDefaultProperties) =
      ((propInList p.name db).or (p.classDef attr)).or (p.userDef attr) := by
    unfold propInList addUserDefault concat RangeProp.classDef RangeProp.userDef propInList
    rw [atKey_addMissing,atKey_overlay,Option.map_or,Option.map_or]
  unfold restartText fallbackText
  rw [hl]
  cases propInList p.name db <;> rfl

theorem restartText_put (db : List AttrProperty) (v : String) :
    restartText attr q (putProperty db p.name v) = if q = p then v else restartText attr q db := by
  rw [restartText_eq,restartText_eq,propInList_put]
  by_cases h : q = p
  · rw [if_pos (congrArg RangeProp.name h),if_pos h]
    rfl
  · rw [if_neg (fun he => h (rangeName_injective he)),if_neg h]

theorem restartText_without (db : List AttrProperty) :
    restartText attr q (without AttrProperty.name p.name db) =
      if q = p then fallbackText attr p else restartText attr q db := by
  rw [restartText_eq,restartText_eq,propInList_delete]
  by_cases h : q = p
  · rw [if_pos (congrArg RangeProp.name h),if_pos h,h]
    rfl
  · rw [if_neg (fun he => h (rangeName_injective he)),if_neg h]

/-- The text a restart finds after the work of one property. -/
theorem restartText_upd (db : List AttrProperty) (dba : DbAction) :
    restartText attr q (updDatabase [⟨p.name,dba⟩] db) =
      if q = p then
        match dba with
        | .upd v => v
        | .del => fallbackText attr p
      else restartText attr q db := by
  cases dba with
  | upd v => exact restartText_put db v
  | del => exact restartText_without db

end Database

section Alarm
variable {p : RangeProp} {mem : Memorized D} {stack : D.Dbl × D.Dbl} {old : String} {o o' : Option Int}

/-- Each default is a decimal integer of the type, where there is one. -/
def DefaultsOk (attr : AttrDesc) : Prop :=
  ∀ p : RangeProp, (∀ d, p.classDef attr = some d → ∃ n, Denotes attr.dataType d n) ∧
    (∀ d, p.userDef attr = some d → ∃ n, Denotes attr.dataType d n)

/-- A text of a request: a keyword or a decimal integer of the type. -/
def ConfOk (t : AttrType) (conf : String) : Prop := isKeyword conf ∨ ∃ n, Denotes t conf n

theorem default_means {x : Option String} (h : ∀ d, x = some d → ∃ n, Denotes t d n) :
    ∃ o, Means t (x.getD "Not specified") o := by
  cases x with
  | none => exact ⟨none,rfl⟩
  | some d =>
    obtain ⟨n,hn⟩ := h d rfl
    exact ⟨some n,hn⟩

theorem default_denotes (hd : DefaultsOk attr) {d : String}
    (h : (p.classDef attr).or (p.userDef attr) = some d) : ∃ n, Denotes attr.dataType d n := by
  cases hc : p.classDef attr with
  | none =>
    rw [hc,Option.none_or] at h
    exact (hd p).2 d h
  | some c =>
    rw [hc,Option.some_or] at h
    exact (hd p).1 d (hc.trans h)

theorem fallback_means (hd : DefaultsOk attr) (p : RangeProp) :
    ∃ o, Means attr.dataType (fallbackText attr p) o :=
  default_means (fun _ h => default_denotes hd h)

theorem asked_means (hd : DefaultsOk attr) (hc : ConfOk attr.dataType conf) (p : RangeProp) :
    ∃ o, Means attr.dataType (askedText attr p conf) o := by
  unfold askedText
  split
  next => exact ⟨none,rfl⟩
  next h1 =>
    split
    next => exact default_means (hd p).2
    next h2 =>
      split
      next =>
        cases hcls : p.classDef attr with
        | none => exact default_means (hd p).2
        | some c =>
          obtain ⟨n,hn⟩ := (hd p).1 c hcls
          exact ⟨some n,hn⟩
      next h3 =>
        obtain ⟨n,hn⟩ := hc.resolve_left (fun hk => hk.elim h1 (fun hk => hk.elim h2 h3))
        exact ⟨some n,hn⟩

/-- What the work on the database leaves a restart with, when the text that had the meaning `o` has
got the meaning `o'`. -/
def Leaves (attr : AttrDesc) (p : RangeProp) (conf : String) (o o' : Option Int) : Store → Prop
  | .nothing => o = o'
  | .notSpecified => o' = none
  | .userDefault => Means attr.dataType ((p.userDef attr).getD "") o'
  | .confVal => ∃ n, o' = some n ∧ Denotes attr.dataType conf n
  | .delete => Means attr.dataType (fallbackText attr p) o'

/-- The database is left alone when the text stays as it was. -/
theorem leaves_unless_same {new : String} {store : Store} (ho : Means attr.dataType old o)
    (ha : Means attr.dataType new o') (h : Leaves attr p conf o o' store) :
    Leaves attr p conf o o' (if old ≠ new then store else .nothing) := by
  split
  next => exact h
  next hold => exact ho.unique (not_not.mp hold ▸ ha)

theorem leaves_notSpecified :
    Leaves attr p conf o none
      (if (p.userDef attr).isSome ∨ (p.classDef attr).isSome then .notSpecified else .delete) := by
  split
  next => rfl
  next h =>
    obtain ⟨hu,hc⟩ := not_or.mp h
    have hf : fallbackText attr p = "Not specified" := by
      rw [fallbackText,Option.not_isSome_iff_eq_none.mp hu,Option.not_isSome_iff_eq_none.mp hc]
      rfl
    exact hf

theorem leaves_empty (ha : Means attr.dataType ((p.userDef attr).getD "Not specified") o') :
    Leaves attr p conf o o'
      (if (p.classDef attr).isSome then (if (p.userDef attr).isSome then .userDefault else .notSpecified)
        else .delete) := by
  split
  next =>
    split
    next hu =>
      obtain ⟨u,hu⟩ := Option.isSome_iff_exists.mp hu
      rw [hu] at ha
      rw [Leaves,hu]
      exact ha
    next hu =>
      rw [Option.not_isSome_iff_eq_none.mp hu] at ha
      exact ha.eq_none rfl
  next hc =>
    rw [Leaves,fallbackText,Option.not_isSome_iff_eq_none.mp hc]
    exact ha

theorem leaves_nan (ha : Means attr.dataType ((p.classDef attr).getD ((p.userDef attr).getD "Not specified")) o') :
    Leaves attr p conf o o' .delete := by
  rw [Leaves,fallbackText]
  cases hc : p.classDef attr with
  | none =>
    rw [hc] at ha
    exact ha
  | some c =>
    rw [hc] at ha
    exact ha

/-- A default that is found equal to a number is a text of this number. -/
theorem default_of_equal (ht : hasBounds t) {x : Option String}
    (hx : ∀ d, x = some d → ∃ m, Denotes t d m) (hn : Denotes t conf n)
    (he : equalDef D t conf x = true) : ∃ d, x = some d ∧ Denotes t d n := by
  cases x with
  | none => cases he
  | some d =>
    obtain ⟨m,hm⟩ := hx d rfl
    have hnm := (equalDef_iff ht hn hm).mp he
    exact ⟨d,rfl,hnm ▸ hm⟩

theorem leaves_number (ht : hasBounds attr.dataType) (hd : DefaultsOk attr)
    (hn : Denotes attr.dataType conf n) :
    Leaves attr p conf o (some n)
      (if equalDef D attr.dataType conf (p.userDef attr) then
        (if (p.classDef attr).isSome then .userDefault else .delete)
      else if equalDef D attr.dataType conf (p.classDef attr) then .delete
      else .confVal) := by
  split
  next heu =>
    obtain ⟨u,hu,hden⟩ := default_of_equal ht (hd p).2 hn heu
    split
    next =>
      rw [Leaves,hu]
      exact hden
    next hc =>
      rw [Leaves,fallbackText,Option.not_isSome_iff_eq_none.mp hc,hu]
      exact hden
  next =>
    split
    next hec =>
      obtain ⟨c,hc,hden⟩ := default_of_equal ht (hd p).1 hn hec
      rw [Leaves,fallbackText,hc]
      exact hden
    next => exact ⟨n,rfl,hn⟩

/-- The decision about the database follows the meaning of the text that was asked for. -/
theorem store_means (ht : hasBounds attr.dataType) (hd : DefaultsOk attr)
    (hc : ConfOk attr.dataType conf) (ho : Means attr.dataType old o)
    (ha : Means attr.dataType (askedText attr p conf) o') :
    Leaves attr p conf o o' (chooseAlarm D attr p conf old).store := by
  unfold chooseAlarm
  unfold askedText at ha
  by_cases h1 : sameNoCase conf "Not specified"
  · rw [if_pos h1] at ha ⊢
    obtain rfl := ha.eq_none rfl
    exact leaves_unless_same ho ha leaves_notSpecified
  · rw [if_neg h1] at ha ⊢
    by_cases h2 : conf = ""
    · rw [if_pos h2] at ha ⊢
      exact leaves_unless_same ho ha (leaves_empty ha)
    · rw [if_neg h2] at ha ⊢
      by_cases h3 : sameNoCase conf "NaN"
      · rw [if_pos h3] at ha ⊢
        exact leaves_unless_same ho ha (leaves_nan ha)
      · rw [if_neg h3] at ha ⊢
        obtain ⟨n,hn⟩ := hc.resolve_left (fun hk => hk.elim h1 (fun hk => hk.elim h2 h3))
        obtain rfl := ha.eq_some hn
        exact leaves_unless_same ho ha (leaves_number ht hd hn)

/-- No double that was not read in this call has the number of the bound. -/
def stackIgnored (cls user : Option String) (c : Chosen) (stack : D.Dbl × D.Dbl) (text : String) : Bool :=
  (cls.or user).isNone || defaultRead cls c || !D.eq (D.read text).1 (stackDouble cls stack)

theorem shownText_means {c : Chosen} (hd : DefaultsOk attr) (h : Denotes attr.dataType text n)
    (hs : stackIgnored (p.classDef attr) (p.userDef attr) c stack text = true) :
    Denotes attr.dataType (shownText (p.classDef attr) (p.userDef attr) c stack text) n := by
  rcases shownText_cases (p.classDef attr) (p.userDef attr) stack c text with he | ⟨d,hdef,he,heq⟩
  · rw [he]
    exact h
  · obtain ⟨m,hm⟩ := default_denotes hd hdef
    unfold stackIgnored at hs
    rw [hdef,Option.isNone_some,Bool.false_or] at hs
    cases hr : defaultRead (p.classDef attr) c with
    | true =>
      rw [hr,if_pos rfl] at heq
      rw [he]
      exact (D.eq_iff _ _ _ _ h.read.2 hm.read.2).mp heq ▸ hm
    | false =>
      rw [hr,if_neg Bool.false_ne_true] at heq
      rw [hr,Bool.false_or,heq] at hs
      cases hs

/-- Memory and database agree on a property: its text in memory and the text a restart finds have
one meaning, and flag and value are those of it. -/
def Agrees (attr : AttrDesc) (p : RangeProp) (s : RangeState D) : Prop :=
  ∃ o, Means attr.dataType (s.range p).str o ∧ Means attr.dataType (restartText attr p s.db) o ∧
    (s.range p).checkIt = o.isSome ∧ ∀ n, o = some n → (s.range p).val = .int n

theorem dbText_means (ht : isInteger attr.dataType) (h : Denotes attr.dataType conf n) :
    Denotes attr.dataType (dbText D attr.dataType conf) n := by
  have he : dbText D attr.dataType conf = intString n := by
    have hty := typedText_denotes (D := D) (.inl ht) h
    revert hty
    generalize attr.dataType = t at ht
    cases t <;> first | exact absurd ht (by decide) | exact id
  rw [he]
  exact denotes_intString h.fits h.exact

end Alarm

section Steps
variable {p q : RangeProp} {s s' : RangeState D}

/-- A change is within the values looked at. -/
def Change.Valid (t : AttrType) : Change D → Prop
  | .alarmProp _ _ _ conf | .typedText _ conf => ConfOk t conf
  | .typed _ n => fits t n ∧ n.natAbs ≤ 2 ^ 53

/-- The typed setter deletes the property for the text of the user default: then no class default
may say otherwise. Anything else it stores, which it cannot for `DEV_ENCODED`. -/
def typedSafe (attr : AttrDesc) (p : RangeProp) (n : Int) : Bool :=
  if p.userDef attr = some (intString n) then (p.classDef attr).all (fun d => numeral d = some n)
  else attr.dataType ≠ .devEncoded

/-- The change stores what it sets. -/
def Change.safe (attr : AttrDesc) (s : RangeState D) : Change D → Bool
  | .alarmProp _ stack p conf =>
    let c := chooseAlarm D attr p conf (s.range p).str
    (attr.dataType ≠ .devEncoded || c.store ≠ .confVal) &&
      (c.str = "Not specified" ||
        stackIgnored (p.classDef attr) (p.userDef attr) c stack
          (Conf.typedText D attr.dataType c.str (D.read c.str).1))
  | .typed p n => typedSafe attr p n
  | .typedText p conf =>
    match settledText attr p conf with
    | none => p = .minValue || p = .maxValue || !(s.range p).checkIt
    | some text => (numeral text).all (typedSafe attr p)

theorem agrees_other {r : RangeConf D} {db : List AttrProperty} (h : Agrees attr q s) (hne : q ≠ p)
    (hdb : restartText attr q db = restartText attr q s.db) :
    Agrees attr q ⟨Function.update s.range p r,db⟩ := by
  unfold Agrees
  dsimp only
  rw [Function.update_of_ne hne,hdb]
  exact h

theorem agrees_self {r : RangeConf D} {db : List AttrProperty} {o : Option Int}
    (hstr : Means attr.dataType r.str o) (hdb : Means attr.dataType (restartText attr p db) o)
    (hflag : r.checkIt = o.isSome) (hval : ∀ n, o = some n → r.val = .int n) :
    Agrees attr p ⟨Function.update s.range p r,db⟩ := by
  refine ⟨o,?_,hdb,?_,?_⟩ <;> dsimp only <;> rw [Function.update_self]
  · exact hstr
  · exact hflag
  · exact hval

theorem storeInDb_short {store : Store} {dbas : List DbAction}
    (h : storeInDb D attr p conf store = .ok dbas) : dbas = [] ∨ ∃ dba, dbas = [dba] := by
  cases store with
  | nothing =>
    cases h
    exact .inl rfl
  | notSpecified | userDefault | delete =>
    cases h
    exact .inr ⟨_,rfl⟩
  | confVal =>
    dsimp only [storeInDb] at h
    split at h
    next =>
      cases h
      exact .inr ⟨_,rfl⟩
    next => cases h

variable (ht : hasBounds attr.dataType) (hd : DefaultsOk attr)
include ht hd

/-- The text a restart finds after the database work has the meaning of what was asked for. -/
theorem stored_means {o o' : Option Int} {old : String} {dbas : List DbAction} {db : List AttrProperty}
    (hc : ConfOk attr.dataType conf) (ho : Means attr.dataType old o)
    (hr : Means attr.dataType (restartText attr p db) o)
    (ha : Means attr.dataType (askedText attr p conf) o')
    (he : attr.dataType ≠ .devEncoded ∨ (chooseAlarm D attr p conf old).store ≠ .confVal)
    (h : storeInDb D attr p conf (chooseAlarm D attr p conf old).store = .ok dbas) :
    Means attr.dataType (restartText attr p (updDatabase (dbas.map (fun dba => ⟨p.name,dba⟩)) db)) o' := by
  have hs := store_means (D := D) ht hd hc ho ha
  cases hst : (chooseAlarm D attr p conf old).store with
  | nothing =>
    rw [hst] at h hs
    cases h
    exact hs ▸ hr
  | notSpecified =>
    rw [hst] at h hs
    cases h
    rw [List.map_singleton,restartText_upd,if_pos rfl]
    exact hs ▸ rfl
  | userDefault =>
    rw [hst] at h hs
    cases h
    rw [List.map_singleton,restartText_upd,if_pos rfl]
    exact hs
  | delete =>
    rw [hst] at h hs
    cases h
    rw [List.map_singleton,restartText_upd,if_pos rfl]
    exact hs
  | confVal =>
    rw [hst] at h hs he
    obtain ⟨n,rfl,hn⟩ := hs
    have hint : isInteger attr.dataType := ht.resolve_right (he.resolve_right (fun hne => hne rfl))
    unfold storeInDb at h
    rw [if_pos hn.read.1] at h
    cases h
    rw [List.map_singleton,restartText_upd,if_pos rfl]
    exact dbText_means hint hn

theorem changeProp_agrees {mem : Memorized D} {stack : D.Dbl × D.Dbl}
    (h : changeProp attr mem stack p conf s = some s') (hv : ConfOk attr.dataType conf)
    (hs : (Change.alarmProp mem stack p conf).safe attr s = true) (ha : ∀ q, Agrees attr q s) (q : RangeProp) :
    Agrees attr q s' := by
  unfold changeProp at h
  split at h
  next => cases h
  next r dbas he =>
    cases h
    have hok : (setOneAlarmProp attr p mem stack conf (s.range p)).2 = .ok dbas := by rw [he]
    have hres : (setOneAlarmProp attr p mem stack conf (s.range p)).1 = r := by rw [he]
    obtain ⟨hst,hr⟩ := setOneAlarmProp_ok hok
    by_cases hq : q = p
    · subst hq
      obtain ⟨o,hstr,hdb,-,-⟩ := ha q
      obtain ⟨o',ho'⟩ := asked_means hd hv q
      simp only [Change.safe,Bool.and_eq_true,Bool.or_eq_true,decide_eq_true_eq] at hs
      have hnew := stored_means ht hd hv hstr hdb ho' hs.1 hst
      rw [hres] at hr
      rcases hr with ⟨hn,rfl⟩ | ⟨hn,rfl⟩
      · have : o' = none := ho'.eq_none hn
        subst this
        exact agrees_self (o := none) rfl hnew rfl (fun n he => nomatch he)
      · obtain ⟨n,rfl,hden⟩ := ho'.some_of_ne hn
        have hcast := castTo_denotes (D := D) ht hden
        have htext := typedText_denotes (D := D) ht hden
        rw [chooseAlarm_str,htext] at hs
        rw [hcast,htext]
        refine agrees_self (o := some n) ?_ hnew rfl (fun m he => by cases he; rfl)
        exact shownText_means hd (denotes_intString hden.fits hden.exact) (hs.2.resolve_left hn)
    · refine agrees_other (ha q) hq ?_
      rcases storeInDb_short hst with rfl | ⟨dba,rfl⟩
      · rfl
      · rw [List.map_singleton,restartText_upd,if_neg hq]

omit ht hd in
theorem setTyped_agrees (h : setTyped attr p n s = some s') (hf : fits attr.dataType n)
    (he : n.natAbs ≤ 2 ^ 53) (hs : typedSafe attr p n = true) (ha : ∀ q, Agrees attr q s)
    (q : RangeProp) : Agrees attr q s' := by
  have hn := denotes_intString hf he
  unfold setTyped at h
  obtain ⟨-,h⟩ := Option.ite_none_left_eq_some.mp h
  cases h
  unfold typedSafe at hs
  by_cases hu : p.userDef attr = some (intString n)
  · rw [if_pos hu] at hs ⊢
    have hfall : Denotes attr.dataType (fallbackText attr p) n := by
      unfold fallbackText
      cases hcl : p.classDef attr with
      | none =>
        rw [hu]
        exact hn
      | some d =>
        rw [hcl,Option.all_some,decide_eq_true_eq] at hs
        exact ⟨hs,hf,he⟩
    by_cases hq : q = p
    · subst hq
      refine agrees_self (o := some n) hn ?_ rfl (fun m he => by cases he; rfl)
      rw [restartText_without,if_pos rfl]
      exact hfall
    · exact agrees_other (ha q) hq (by rw [restartText_without,if_neg hq])
  · rw [if_neg hu] at hs ⊢
    have htext : updAttPropText attr.dataType n = intString n := if_neg (of_decide_eq_true hs)
    by_cases hq : q = p
    · subst hq
      refine agrees_self (o := some n) hn ?_ rfl (fun m he => by cases he; rfl)
      rw [restartText_put,if_pos rfl,htext]
      exact hn
    · exact agrees_other (ha q) hq (by rw [restartText_put,if_neg hq])

omit ht hd in
theorem setNotSpecified_agrees
    (hs : (p = .minValue || p = .maxValue || !(s.range p).checkIt) = true) (ha : ∀ q, Agrees attr q s)
    (q : RangeProp) : Agrees attr q (setNotSpecified p s) := by
  unfold setNotSpecified
  by_cases hq : q = p
  · subst hq
    refine agrees_self (o := none) rfl ?_ ?_ (fun n he => nomatch he)
    · rw [restartText_put,if_pos rfl]
      rfl
    · dsimp only
      split
      next => rfl
      next hne =>
        simp only [Bool.or_eq_true,decide_eq_true_eq,Bool.not_eq_true'] at hs
        exact hs.resolve_left hne
  · exact agrees_other (ha q) hq (by rw [restartText_put,if_neg hq])

omit ht in
theorem settledText_denotes (hv : ConfOk attr.dataType conf) (h : settledText attr p conf = some text) :
    ∃ n, Denotes attr.dataType text n := by
  have hclass := (hd p).1
  have huser := (hd p).2
  unfold settledText at h
  cases hcl : p.classDef attr with
  | some cls =>
    rw [hcl] at h
    dsimp only at h
    split at h
    next => cases h
    next h1 =>
      split at h
      next =>
        cases h
        exact hclass _ hcl
      next h2 =>
        split at h
        next => exact huser _ h
        next h3 =>
          cases h
          exact hv.resolve_left (fun hk => hk.elim h1 (fun hk => hk.elim h3 (fun hk => h2 (.inl hk))))
  | none =>
    cases hu : p.userDef attr with
    | some user =>
      rw [hcl,hu] at h
      dsimp only at h
      split at h
      next => cases h
      next h1 =>
        split at h
        next =>
          cases h
          exact huser _ hu
        next h2 =>
          cases h
          exact hv.resolve_left (fun hk =>
            hk.elim h1 (fun hk => hk.elim (fun hk => h2 (.inr (.inr hk))) (fun hk => h2 (.inl hk))))
    | none =>
      rw [hcl,hu] at h
      dsimp only at h
      split at h
      next => cases h
      next hk =>
        cases h
        exact hv.resolve_left hk

theorem setTypedText_agrees (h : setTypedText attr p conf s = some s') (hv : ConfOk attr.dataType conf)
    (hs : (Change.typedText p conf).safe attr s = true) (ha : ∀ q, Agrees attr q s) (q : RangeProp) :
    Agrees attr q s' := by
  unfold setTypedText at h
  split at h
  next => cases h
  next =>
    dsimp only [Change.safe] at hs
    cases hset : settledText attr p conf with
    | none =>
      rw [hset] at h hs
      cases h
      exact setNotSpecified_agrees hs ha q
    | some text =>
      obtain ⟨n,hn⟩ := settledText_denotes hd hv hset
      rw [hset] at h hs
      dsimp only at h hs
      rw [if_pos hn.read.1,castTo_denotes ht hn] at h
      rw [hn.numeral] at hs
      exact setTyped_agrees h hn.fits hn.exact hs ha q

/-- One change. -/
theorem change_agrees {c : Change D} (h : change attr s c = some s') (hv : c.Valid attr.dataType)
    (hs : c.safe attr s = true) (ha : ∀ q, Agrees attr q s) (q : RangeProp) : Agrees attr q s' := by
  cases c with
  | alarmProp mem stack p conf => exact changeProp_agrees ht hd h hv hs ha q
  | typed p n => exact setTyped_agrees h hv.1 hv.2 hs ha q
  | typedText p conf => exact setTypedText_agrees ht hd h hv hs ha q

end Steps

section Restart
variable {p : RangeProp} {s : RangeState D} {db : List AttrProperty}

/-- Flag and value in memory are those a restart computes. -/
def Mirrored (attr : AttrDesc) (p : RangeProp) (s : RangeState D) : Prop :=
  (s.range p).checkIt = (restartVal D attr p s.db).isSome ∧
    ∀ v, restartVal D attr p s.db = some v → (s.range p).val = v

theorem restartVal_means (ht : hasBounds attr.dataType) {o : Option Int}
    (h : Means attr.dataType (restartText attr p db) o) :
    restartVal D attr p db = o.map CheckVal.int := by
  unfold restartVal
  cases o with
  | none => exact if_pos h
  | some n =>
    rw [if_neg h.ne_notSpecified,initCheckValProp_denotes ht h]
    rfl

theorem mirrored_of_agrees (ht : hasBounds attr.dataType) (h : Agrees attr p s) : Mirrored attr p s := by
  obtain ⟨o,-,hdb,hflag,hval⟩ := h
  unfold Mirrored
  rw [restartVal_means ht hdb]
  refine ⟨by rw [hflag,Option.isSome_map],fun v hv => ?_⟩
  obtain ⟨n,hn,rfl⟩ := Option.map_eq_some_iff.mp hv
  exact hval n hn

variable (D) in
/-- The attribute as it is after a start of the server. -/
def started (attr : AttrDesc) (db : List AttrProperty) : RangeState D :=
  ⟨fun p => ⟨restartText attr p db,(restartVal D attr p db).getD (.int 0),
    (restartVal D attr p db).isSome⟩,db⟩

/-- What the database holds for a property is a number or not specified. -/
def DbOk (attr : AttrDesc) (db : List AttrProperty) : Prop :=
  ∀ (p : RangeProp) d, propInList p.name db = some d → ∃ o, Means attr.dataType d o

theorem started_agrees (ht : hasBounds attr.dataType) (hd : DefaultsOk attr) (hdb : DbOk attr db)
    (p : RangeProp) : Agrees attr p (started D attr db) := by
  have hm : ∃ o, Means attr.dataType (restartText attr p db) o := by
    rw [restartText_eq]
    cases h : propInList p.name db with
    | none => exact fallback_means hd p
    | some d => exact hdb p d h
  obtain ⟨o,ho⟩ := hm
  have hv : restartVal D attr p db = o.map .int := restartVal_means ht ho
  refine ⟨o,ho,ho,?_,?_⟩
  · dsimp only [started]
    rw [hv,Option.isSome_map]
  · rintro n rfl
    dsimp only [started]
    rw [hv]
    rfl

theorem sample_defaults : DefaultsOk sampleAttr :=
  fun _ => ⟨fun _ h => (nomatch h),fun _ h => (nomatch h)⟩

def sampleChanges : List (Change wholeNumbers) :=
  [.alarmProp ⟨false,false,[]⟩ ((0 : Int),(0 : Int)) .minValue "5",.typed .minValue 7]

theorem sample_number {text : String} {n : Int} (h : numeral text = some n) (hn : n.natAbs < 2 ^ 15) :
    Denotes sampleAttr.dataType text n :=
  ⟨h,⟨_,rfl,by dsimp only; omega⟩,by omega⟩

theorem sample_db : DbOk sampleAttr [] := by
  intro p d h
  cases h

/-- An attribute of type `DevShort` with a default of the class and one of the user. -/
def defaultedAttr : AttrDesc :=
  { sampleAttr with
    classProperties := [⟨"min_value","20"⟩]
    userDefaultProperties := [⟨"min_value","10"⟩] }

end Restart

end CppTango.Device.Conf
