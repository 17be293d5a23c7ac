import CppTango.Device.Alarm

namespace CppTango.Device.Alarm

open CppTango.Lib

section Raise
variable {r : Reading} {hit : Bool} {quality : AttrQuality} {flag : AlarmFlag}

def Reading.raiseIf (r : Reading) (hit : Bool) (quality : AttrQuality) (flag : AlarmFlag) : Reading :=
  if hit then r.raise quality flag else r

@[simp] theorem Reading.raiseIf_false : r.raiseIf false quality flag = r := rfl

@[simp] theorem Reading.raiseIf_value : (r.raiseIf hit quality flag).value = r.value := by
  cases hit <;> rfl

@[simp] theorem Reading.raiseIf_dataSize : (r.raiseIf hit quality flag).dataSize = r.dataSize := by
  cases hit <;> rfl

@[simp] theorem Reading.raiseIf_quality :
    (r.raiseIf hit quality flag).quality = if hit then quality else r.quality := by
  cases hit <;> rfl

@[simp] theorem Reading.raiseIf_alarm (f : AlarmFlag) :
    (r.raiseIf hit quality flag).alarm f = (r.alarm f || (hit && decide (f = flag))) := by
  cases hit with
  | false => simp
  | true =>
    change Function.update r.alarm flag true f = _
    by_cases hf : f = flag
    · subst hf
      simp
    · simp [hf]

end Raise

section Bounds
variable {a : Attribute} {type : AttrQuality} {elt : Nat → Except Stop Int} {elts : List Int}
  {min max flag : AlarmFlag} {out : Int → Bool} {minValue maxValue : Int} {r : Reading}

theorem check_bound (helt : ∀ i (h : i < elts.length), elt i = .ok elts[i]) :
    ∃ hit, checkBound a type flag elt elts.length out r = .ok (hit,r.raiseIf hit type flag) ∧
      (hit = true ↔ a.alarmConf flag = true ∧ ∃ x ∈ elts, out x = true) := by
  cases hc : a.alarmConf flag with
  | false => exact ⟨false,by rw [checkBound,hc]; rfl,by simp⟩
  | true =>
    obtain ⟨hit,hok,hiff⟩ := searchFrom_decides (f := fun i => (elt i).map out) (i := 0)
      (n := elts.length) (p := fun i => ∃ h : i < elts.length, out elts[i] = true) (by
        intro i _ hi
        have hlt : i < elts.length := by omega
        rw [helt i hlt]
        exact ⟨out elts[i],rfl,fun h => ⟨hlt,h⟩,fun ⟨_,h⟩ => h⟩)
    refine ⟨hit,?_,hiff.trans ⟨?_,?_⟩⟩
    · rw [checkBound,hc,if_pos rfl,hok]
      cases hit <;> rfl
    · rintro ⟨i,_,_,hi,h⟩
      exact ⟨rfl,elts[i],List.getElem_mem hi,h⟩
    · rintro ⟨-,x,hx,h⟩
      obtain ⟨i,hi,rfl⟩ := List.getElem_of_mem hx
      exact ⟨i,i.zero_le,by omega,hi,h⟩

/-- Both loops of a level check: what they find, and what they leave. -/
theorem check_bounds (helt : ∀ i (h : i < elts.length), elt i = .ok elts[i]) :
    ∃ low high, checkBounds a type min max elt elts.length minValue maxValue r =
        .ok (low || high,(r.raiseIf low type min).raiseIf high type max) ∧
      (low = true ↔ a.alarmConf min = true ∧ ∃ x ∈ elts, x ≤ minValue) ∧
      (high = true ↔ a.alarmConf max = true ∧ ∃ x ∈ elts, maxValue ≤ x) := by
  obtain ⟨low,hl,hlow⟩ := @check_bound a type elt elts min (fun x => x ≤ minValue) r helt
  obtain ⟨high,hh,hhigh⟩ := @check_bound a type elt elts max (fun x => maxValue ≤ x)
    (r.raiseIf low type min) helt
  refine ⟨low,high,?_,by simpa using hlow,by simpa using hhigh⟩
  rw [checkBounds,hl,ok_bind]
  dsimp only
  rw [hh]
  rfl

end Bounds

section Present
variable {a : Attribute} {r : Reading}

/-- The read elements of a value that is there with as many of them as `data_size` says. -/
def Reading.elements (a : Attribute) (r : Reading) : Option (List Int) :=
  match a.dataType,r.value with
  | .int _,some (.ints xs) => if r.dataSize ≤ xs.length then some (xs.take r.dataSize) else none
  | .encoded,some (.encoded (v :: vs)) =>
    if r.dataSize ≤ (v :: vs).length then some (v.encodedData.map (fun x => (x.toNat : Int))) else none
  | _,_ => none

/-- The flags the two loops of the warning check look at and set. -/
def warnFlags : DataType → AlarmFlag × AlarmFlag
  | .int _ => (.minWarn,.maxWarn)
  | .encoded => (.minLevel,.maxLevel)

theorem intAt_of_lt {xs : List Int} {i : Nat} (h : i < xs.length) : intAt (some (.ints xs)) i = .ok xs[i] := by
  rw [intAt,List.getElem?_eq_getElem h]
  rfl

/-- What both level checks of a value that is there come down to. -/
theorem check_present {elts : List Int} (h : r.elements a = some elts) :
    ∃ elt n, n = elts.length ∧ (∀ i (hi : i < elts.length), elt i = .ok elts[i]) ∧
      checkLevelAlarm a r =
        checkBounds a .alarm .minLevel .maxLevel elt n a.minAlarm a.maxAlarm r ∧
      checkWarnAlarm a r =
        checkBounds a .warning (warnFlags a.dataType).1 (warnFlags a.dataType).2 elt n
          a.minWarning a.maxWarning r := by
  unfold Reading.elements at h
  split at h
  · rename_i k xs ht hv
    split at h
    · rename_i hn
      cases h
      refine ⟨intAt r.value,r.dataSize,by simp [hn],?_,?_,?_⟩
      · intro i hi
        have hlt : i < xs.length := by
          rw [List.length_take] at hi
          omega
        rw [hv,intAt_of_lt hlt,List.getElem_take]
      · rw [checkLevelAlarm,ht]
        rfl
      · rw [checkWarnAlarm,ht]
        rfl
    · cases h
  · rename_i v vs ht hv
    split at h
    · cases h
      refine ⟨intAt (some (.ints (v.encodedData.map (fun x => (x.toNat : Int))))),
        (v.encodedData.map (fun x => (x.toNat : Int))).length,rfl,?_,?_,?_⟩
      · intro i hi
        exact intAt_of_lt hi
      · rw [checkLevelAlarm,ht]
        simp only [generalCheckDevencodedAlarm,hv]
      · rw [checkWarnAlarm,ht]
        simp only [generalCheckDevencodedAlarm,hv,warnFlags]
    · cases h
  · cases h

/-- What one check of two bounds found among the elements. -/
structure Found (a : Attribute) (elts : List Int) (min max : AlarmFlag) (minValue maxValue : Int)
    (low high : Bool) : Prop where
  low_iff : low = true ↔ a.alarmConf min = true ∧ ∃ x ∈ elts, x ≤ minValue
  high_iff : high = true ↔ a.alarmConf max = true ∧ ∃ x ∈ elts, maxValue ≤ x

def Reading.raiseBoth (r : Reading) (quality : AttrQuality) (min max : AlarmFlag) (low high : Bool) :
    Reading :=
  (r.raiseIf low quality min).raiseIf high quality max

section Both
variable {q : AttrQuality} {min max : AlarmFlag} {low high : Bool}

@[simp] theorem raiseBoth_quality :
    (r.raiseBoth q min max low high).quality = if low || high then q else r.quality := by
  rw [Reading.raiseBoth]
  cases low <;> cases high <;> simp

@[simp] theorem raiseBoth_alarm (f : AlarmFlag) : (r.raiseBoth q min max low high).alarm f =
    (r.alarm f || (low && decide (f = min)) || (high && decide (f = max))) := by
  rw [Reading.raiseBoth]
  simp

@[simp] theorem raiseBoth_none : r.raiseBoth q min max false false = r := rfl

end Both

variable {elts : List Int}

theorem check_levels (h : r.elements a = some elts) :
    ∃ low high, checkLevels a r = .ok (low || high,r.raiseBoth .alarm .minLevel .maxLevel low high) ∧
      Found a elts .minLevel .maxLevel a.minAlarm a.maxAlarm low high := by
  by_cases hc : a.alarmConf .minLevel ∨ a.alarmConf .maxLevel
  · obtain ⟨elt,n,rfl,helt,hlevel,-⟩ := check_present h
    obtain ⟨low,high,hok,hlow,hhigh⟩ := @check_bounds a .alarm elt elts .minLevel .maxLevel
      a.minAlarm a.maxAlarm r helt
    exact ⟨low,high,by rw [checkLevels,if_pos hc,hlevel,hok]; rfl,hlow,hhigh⟩
  · refine ⟨false,false,by rw [checkLevels,if_neg hc]; rfl,?_,?_⟩
    · simp_all
    · simp_all

theorem check_warnings {returned : Bool} (h : r.elements a = some elts)
    (hc : returned = false ∧ (a.alarmConf .minWarn ∨ a.alarmConf .maxWarn)) :
    ∃ low high, checkWarnings a returned r =
        .ok (low || high,r.raiseBoth .warning (warnFlags a.dataType).1 (warnFlags a.dataType).2 low high) ∧
      Found a elts (warnFlags a.dataType).1 (warnFlags a.dataType).2 a.minWarning a.maxWarning
        low high := by
  obtain ⟨elt,n,rfl,helt,-,hwarn⟩ := check_present h
  obtain ⟨low,high,hok,hlow,hhigh⟩ := @check_bounds a .warning elt elts (warnFlags a.dataType).1
    (warnFlags a.dataType).2 a.minWarning a.maxWarning r helt
  exact ⟨low,high,by rw [checkWarnings,if_pos hc,hwarn,hok]; rfl,hlow,hhigh⟩

end Present

section Exact
variable (a : Attribute) (elts : List Int)

/-- A configured bound is violated by some element. -/
def Out : AlarmFlag → Prop
  | .minLevel => a.alarmConf .minLevel = true ∧ ∃ x ∈ elts, x ≤ a.minAlarm
  | .maxLevel => a.alarmConf .maxLevel = true ∧ ∃ x ∈ elts, a.maxAlarm ≤ x
  | .minWarn => a.alarmConf .minWarn = true ∧ ∃ x ∈ elts, x ≤ a.minWarning
  | .maxWarn => a.alarmConf .maxWarn = true ∧ ∃ x ∈ elts, a.maxWarning ≤ x
  | .rds => False

instance (f : AlarmFlag) : Decidable (Out a elts f) := by
  cases f <;> unfold Out <;> infer_instance

def LevelOut : Prop := Out a elts .minLevel ∨ Out a elts .maxLevel

def WarnOut : Prop := Out a elts .minWarn ∨ Out a elts .maxWarn

instance : Decidable (LevelOut a elts) := inferInstanceAs (Decidable (_ ∨ _))

instance : Decidable (WarnOut a elts) := inferInstanceAs (Decidable (_ ∨ _))

/-- The quality a reading deserves. -/
def classOf : AttrQuality :=
  if LevelOut a elts then .alarm else if WarnOut a elts then .warning else .valid

/-- and the flags; warnings are left out beside a violated alarm bound. -/
def Flagged (f : AlarmFlag) : Prop :=
  Out a elts f ∧ (LevelOut a elts → f = .minLevel ∨ f = .maxLevel)

/-- An evaluation that classified the elements: it answers whether the quality is no longer VALID,
and sets quality and flags as they deserve. -/
def Classified (o : Except Stop (Bool × Reading)) : Prop :=
  ∃ ret r, o = .ok (ret,r) ∧ r.quality = classOf a elts ∧ (ret = true ↔ r.quality ≠ .valid) ∧
    ∀ f, r.alarm f = true ↔ Flagged a elts f

/-- No warning bound of a `DevEncoded` is violated where it, or the alarm bound of its side, is
configured. -/
def NoEncodedWarning : Prop :=
  ((∃ x ∈ elts, x ≤ a.minWarning) → a.alarmConf .minWarn = false ∧ a.alarmConf .minLevel = false) ∧
    ((∃ x ∈ elts, a.maxWarning ≤ x) → a.alarmConf .maxWarn = false ∧ a.alarmConf .maxLevel = false)

variable {a elts} {r : Reading} {now : Int}

theorem classified_ok {ret : Bool} : Classified a elts (.ok (ret,r)) ↔
    r.quality = classOf a elts ∧ (ret = true ↔ r.quality ≠ .valid) ∧
      ∀ f, r.alarm f = true ↔ Flagged a elts f := by
  constructor
  · rintro ⟨ret',r',he,h⟩
    cases he
    exact h
  · intro h
    exact ⟨ret,r,rfl,h⟩

theorem evaluate_levels (h : r.elements a = some elts) (hrds : a.alarmConf .rds = false)
    (hout : LevelOut a elts) :
    ∃ low high, evaluate a now false r = .ok (true,r.raiseBoth .alarm .minLevel .maxLevel low high) ∧
      (low = true ↔ Out a elts .minLevel) ∧ (high = true ↔ Out a elts .maxLevel) := by
  obtain ⟨low,high,hok,hlow,hhigh⟩ := check_levels h
  have hany : (low || high) = true := by
    rw [Bool.or_eq_true,hlow,hhigh]
    exact hout
  refine ⟨low,high,?_,hlow,hhigh⟩
  rw [evaluate,hok,hany]
  simp [checkWarnings,checkRds,hrds,bind,Except.bind,pure,Except.pure]

theorem evaluate_inside (h : r.elements a = some elts) (hrds : a.alarmConf .rds = false)
    (hout : ¬LevelOut a elts) : evaluate a now false r = checkWarnings a false r := by
  obtain ⟨low,high,hok,hlow,hhigh⟩ := check_levels h
  have hl : low = false := Bool.eq_false_iff.mpr (fun hl => hout (Or.inl (hlow.mp hl)))
  have hh : high = false := Bool.eq_false_iff.mpr (fun hh => hout (Or.inr (hhigh.mp hh)))
  subst hl hh
  rw [evaluate,hok]
  cases hw : checkWarnings a false r with
  | error e => simp [hw,bind,Except.bind]
  | ok p => simp [hw,checkRds,hrds,bind,Except.bind,pure,Except.pure]

theorem classified_levels (h : r.elements a = some elts) (hrds : a.alarmConf .rds = false)
    (hflags : ∀ f, r.alarm f = false) (hout : LevelOut a elts) :
    Classified a elts (evaluate a now false r) := by
  obtain ⟨low,high,hok,hlow,hhigh⟩ := @evaluate_levels a elts r now h hrds hout
  have hany : (low || high) = true := by
    rw [Bool.or_eq_true,hlow,hhigh]
    exact hout
  rw [hok,classified_ok]
  refine ⟨?_,?_,fun f => ?_⟩
  · rw [raiseBoth_quality,hany,classOf,if_pos hout]
    rfl
  · rw [raiseBoth_quality,hany]
    simp
  · rw [raiseBoth_alarm,hflags,Flagged]
    cases f <;> simp [hlow,hhigh,hout]

theorem classified_quiet (hq : r.quality = .valid) (hflags : ∀ f, r.alarm f = false)
    (hout : ¬LevelOut a elts) (hwarn : ¬WarnOut a elts) : Classified a elts (.ok (false,r)) := by
  refine classified_ok.mpr ⟨?_,by simp [hq],fun f => ?_⟩
  · rw [hq,classOf,if_neg hout,if_neg hwarn]
  · rw [hflags]
    refine ⟨fun h => absurd h Bool.false_ne_true,fun ⟨h,_⟩ => ?_⟩
    cases f with
    | minLevel => exact absurd (Or.inl h) hout
    | maxLevel => exact absurd (Or.inr h) hout
    | minWarn => exact absurd (Or.inl h) hwarn
    | maxWarn => exact absurd (Or.inr h) hwarn
    | rds => exact h.elim

theorem no_warn_out (hc : ¬(a.alarmConf .minWarn = true ∨ a.alarmConf .maxWarn = true)) :
    ¬WarnOut a elts := by
  rintro (h | h)
  · exact hc (Or.inl h.1)
  · exact hc (Or.inr h.1)

section Warn
variable {min max : AlarmFlag} {low high : Bool}

theorem flagged_inside (hout : ¬LevelOut a elts) (f : AlarmFlag) : Flagged a elts f ↔ Out a elts f :=
  and_iff_left (fun h => absurd h hout)

/-- What a warning check left is right if its answer and the flags it set are. -/
theorem classified_warn (hq : r.quality = .valid) (hflags : ∀ f, r.alarm f = false)
    (hout : ¬LevelOut a elts) :
    Classified a elts (.ok (low || high,r.raiseBoth .warning min max low high)) ↔
      (low = true ∨ high = true ↔ WarnOut a elts) ∧
        ∀ f, low = true ∧ f = min ∨ high = true ∧ f = max ↔ Out a elts f := by
  rw [classified_ok,raiseBoth_quality,hq,classOf,if_neg hout]
  have hans : (low || high) = true ↔ low = true ∨ high = true := Bool.or_eq_true_iff
  constructor
  · rintro ⟨hquality,-,hf⟩
    refine ⟨?_,fun f => ?_⟩
    · by_cases hw : WarnOut a elts
      · rw [if_pos hw] at hquality
        cases low <;> cases high <;> simp_all
      · rw [if_neg hw] at hquality
        cases low <;> cases high <;> simp_all
    · rw [← flagged_inside hout,← hf,raiseBoth_alarm,hflags]
      simp
  · rintro ⟨hw,hf⟩
    refine ⟨?_,?_,fun f => ?_⟩
    · by_cases h : WarnOut a elts
      · rw [if_pos h,if_pos (hans.mpr (hw.mpr h))]
      · rw [if_neg h,if_neg (fun hb => h (hw.mp (hans.mp hb)))]
    · cases low <;> cases high <;> simp
    · rw [flagged_inside hout,← hf,raiseBoth_alarm,hflags]
      simp

/-- The warning check of an integer type sets what it finds under the flags of its bounds. -/
theorem classified_int (hq : r.quality = .valid) (hflags : ∀ f, r.alarm f = false)
    (hout : ¬LevelOut a elts) (hf : Found a elts .minWarn .maxWarn a.minWarning a.maxWarning low high) :
    Classified a elts (.ok (low || high,r.raiseBoth .warning .minWarn .maxWarn low high)) := by
  obtain ⟨hlow,hhigh⟩ := hf
  refine (classified_warn hq hflags hout).mpr ⟨or_congr hlow hhigh,fun f => ?_⟩
  cases f with
  | minLevel => simpa using fun h => hout (Or.inl h)
  | maxLevel => simpa using fun h => hout (Or.inr h)
  | minWarn => simpa [Out] using hlow
  | maxWarn => simpa [Out] using hhigh
  | rds => simp [Out]

/-- That of a `DevEncoded` sets it under the flags of the alarm bounds, so it is right where it finds
nothing and there is nothing to find. -/
theorem classified_encoded (hq : r.quality = .valid) (hflags : ∀ f, r.alarm f = false)
    (hout : ¬LevelOut a elts) (hf : Found a elts .minLevel .maxLevel a.minWarning a.maxWarning low high) :
    Classified a elts (.ok (low || high,r.raiseBoth .warning .minLevel .maxLevel low high)) ↔
      NoEncodedWarning a elts := by
  obtain ⟨hlow,hhigh⟩ := hf
  rw [classified_warn hq hflags hout,NoEncodedWarning]
  constructor
  · rintro ⟨hw,hflag⟩
    have hl : ¬low = true := fun h => hout (Or.inl ((hflag .minLevel).mp (Or.inl ⟨h,rfl⟩)))
    have hh : ¬high = true := fun h => hout (Or.inr ((hflag .maxLevel).mp (Or.inr ⟨h,rfl⟩)))
    have hno : ¬WarnOut a elts := fun h => (hw.mpr h).elim hl hh
    refine ⟨fun hx => ⟨?_,?_⟩,fun hx => ⟨?_,?_⟩⟩
    · exact Bool.eq_false_iff.mpr (fun h => hno (Or.inl ⟨h,hx⟩))
    · exact Bool.eq_false_iff.mpr (fun h => hl (hlow.mpr ⟨h,hx⟩))
    · exact Bool.eq_false_iff.mpr (fun h => hno (Or.inr ⟨h,hx⟩))
    · exact Bool.eq_false_iff.mpr (fun h => hh (hhigh.mpr ⟨h,hx⟩))
  · rintro ⟨hmin,hmax⟩
    have hl : ¬low = true := fun h =>
      Bool.false_ne_true ((hmin (hlow.mp h).2).2.symm.trans (hlow.mp h).1)
    have hh : ¬high = true := fun h =>
      Bool.false_ne_true ((hmax (hhigh.mp h).2).2.symm.trans (hhigh.mp h).1)
    have hno : ¬WarnOut a elts := by
      rintro (⟨hc,hx⟩ | ⟨hc,hx⟩)
      · exact Bool.false_ne_true ((hmin hx).1.symm.trans hc)
      · exact Bool.false_ne_true ((hmax hx).1.symm.trans hc)
    refine ⟨⟨fun h => absurd h (not_or_intro hl hh),fun h => absurd h hno⟩,fun f => ?_⟩
    have hnone : ¬(low = true ∧ f = .minLevel ∨ high = true ∧ f = .maxLevel) := by tauto
    refine ⟨fun h => absurd h hnone,fun h => ?_⟩
    cases f with
    | minLevel => exact absurd (Or.inl h) hout
    | maxLevel => exact absurd (Or.inr h) hout
    | minWarn => exact absurd (Or.inl h) hno
    | maxWarn => exact absurd (Or.inr h) hno
    | rds => exact h.elim

end Warn

/-- The classification is exact but for the warnings of a `DevEncoded`. -/
theorem classification_exact (hal : ∃ f, a.alarmConf f = true) (hrds : a.alarmConf .rds = false)
    (h : r.elements a = some elts) (hq : r.quality = .valid)
    (hflags : ∀ f, r.alarm f = false) :
    Classified a elts (checkAlarm a now r) ↔
      (a.dataType = .encoded → LevelOut a elts ∨
        a.alarmConf .minWarn = false ∧ a.alarmConf .maxWarn = false ∨ NoEncodedWarning a elts) := by
  have hcode : checkAlarm a now r = evaluate a now false r := by
    have hany : a.isAlarmed = true := by
      obtain ⟨f,hf⟩ := hal
      exact List.any_eq_true.mpr ⟨f,f.mem_all,hf⟩
    simp [checkAlarm,hany,hq]
  rw [hcode]
  by_cases hout : LevelOut a elts
  · exact iff_of_true (classified_levels h hrds hflags hout) (fun _ => Or.inl hout)
  rw [evaluate_inside h hrds hout]
  by_cases hc : a.alarmConf .minWarn = true ∨ a.alarmConf .maxWarn = true
  · obtain ⟨low,high,hok,hf⟩ := check_warnings h ⟨rfl,hc⟩
    rw [hok]
    cases ht : a.dataType with
    | int k =>
      rw [ht] at hf
      exact iff_of_true (classified_int hq hflags hout hf) (fun he => nomatch he)
    | encoded =>
      rw [ht] at hf
      have hnc : ¬(a.alarmConf .minWarn = false ∧ a.alarmConf .maxWarn = false) := by
        rintro ⟨h1,h2⟩
        simp [h1,h2] at hc
      exact (classified_encoded hq hflags hout hf).trans (by simp [hout,hnc])
  · have hnc : a.alarmConf .minWarn = false ∧ a.alarmConf .maxWarn = false := by simpa using hc
    rw [checkWarnings,if_neg (fun h => hc h.2)]
    exact iff_of_true (classified_quiet hq hflags hout (no_warn_out hc)) (fun _ => Or.inr (Or.inl hnc))

/-- Only `min_warning` is configured, -/
def camera : Attribute where
  name := "Image"
  dataType := .encoded
  dataFormat := .scalar
  writable := .read
  isFwd := false
  alarmConf := fun f => f = .minWarn
  minAlarm := 0
  maxAlarm := 0
  minWarning := 5
  maxWarning := 0
  written := none

def lowByte : Reading := ⟨some (.encoded [⟨"GRAY8",[1]⟩]),1,.valid,fun _ => false⟩

/-- and a byte below it: the quality stays VALID. -/
theorem encoded_warning_missed : ¬Classified camera [1] (checkAlarm camera 0 lowByte) := by
  have hstays : checkAlarm camera 0 lowByte = .ok (false,lowByte) := rfl
  rintro ⟨ret,r,he,hq,-⟩
  cases hstays.symm.trans he
  revert hq
  decide

theorem encoded_warning_missed_when :
    Classified camera [1] (checkAlarm camera 0 lowByte) ↔
      (camera.dataType = .encoded → LevelOut camera [1] ∨
        camera.alarmConf .minWarn = false ∧ camera.alarmConf .maxWarn = false ∨
        NoEncodedWarning camera [1]) :=
  classification_exact ⟨.minWarn,rfl⟩ rfl rfl rfl (fun _ => rfl)

end Exact

end CppTango.Device.Alarm
