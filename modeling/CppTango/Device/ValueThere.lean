import CppTango.Device.DevState

namespace CppTango.Device.Alarm

open CppTango.Lib

section Checked

/-- What any check does to a reading: it keeps the value, and raises the quality if and only if it
answers that there is an alarm. -/
structure Checked (r : Reading) (p : Bool × Reading) : Prop where
  value : p.2.value = r.value
  dataSize : p.2.dataSize = r.dataSize
  hit : p.1 = true → isAlarmedQuality p.2.quality = true
  idle : p.1 = false → p.2 = r

/-- A check that may stop. -/
def Checks (r : Reading) (o : Except Stop (Bool × Reading)) : Prop := Yields (Checked r) (fun _ => True) o

variable {a : Attribute} {r : Reading} {type : AttrQuality}

theorem checked_idle (r : Reading) : Checked r (false,r) := ⟨rfl,rfl,Bool.noConfusion,fun _ => rfl⟩

theorem checked_raise {flag : AlarmFlag} (ht : isAlarmedQuality type = true) (hit : Bool) :
    Checked r (if hit then (true,r.raise type flag) else (false,r)) := by
  cases hit with
  | false => exact checked_idle r
  | true => exact ⟨rfl,rfl,fun _ => ht,Bool.noConfusion⟩

/-- Two checks one after the other. -/
theorem Checked.then {b c : Bool} {r₁ r₂ : Reading} (h₁ : Checked r (b,r₁)) (h₂ : Checked r₁ (c,r₂)) :
    Checked r (b || c,r₂) := by
  refine ⟨h₂.value.trans h₁.value,h₂.dataSize.trans h₁.dataSize,fun h => ?_,fun h => ?_⟩
  · cases c with
    | true => exact h₂.hit rfl
    | false =>
      have he : r₂ = r₁ := h₂.idle rfl
      rw [Bool.or_false] at h
      exact he ▸ h₁.hit h
  · obtain ⟨hb,hc⟩ := Bool.or_eq_false_iff.mp h
    exact (h₂.idle hc).trans (h₁.idle hb)

theorem checks_bound {flag : AlarmFlag} {elt : Nat → Except Stop Int} {n : Nat} {out : Int → Bool}
    (ht : isAlarmedQuality type = true) : Checks r (checkBound a type flag elt n out r) := by
  unfold checkBound
  split
  · cases searchFrom (fun i => (elt i).map out) 0 n with
    | error e => trivial
    | ok hit => exact checked_raise ht hit
  · exact checked_idle r

theorem checks_bounds {min max : AlarmFlag} {elt : Nat → Except Stop Int} {n : Nat}
    {minValue maxValue : Int} (ht : isAlarmedQuality type = true) :
    Checks r (checkBounds a type min max elt n minValue maxValue r) := by
  unfold checkBounds
  refine (checks_bound ht).bind (fun p hp => ?_)
  exact (checks_bound ht).bind (fun q hq => hp.then hq)

theorem checks_general {minValue maxValue : Int} :
    Checks r (generalCheckAlarm a type minValue maxValue r) := by
  unfold generalCheckAlarm
  cases type with
  | alarm => exact checks_bounds rfl
  | warning => exact checks_bounds rfl
  | _ => trivial

theorem checks_devencoded {minValue maxValue : Int} :
    Checks r (generalCheckDevencodedAlarm a type minValue maxValue r) := by
  unfold generalCheckDevencodedAlarm
  cases type with
  | alarm =>
    simp only []
    split
    · exact checks_bounds rfl
    · trivial
  | warning =>
    simp only []
    split
    · exact checks_bounds rfl
    · trivial
  | _ => trivial

theorem checks_levels : Checks r (checkLevels a r) := by
  unfold checkLevels checkLevelAlarm
  split
  · split
    · exact checks_general
    · exact checks_devencoded
  · exact checked_idle r

theorem checks_warnings {returned : Bool} : Checks r (checkWarnings a returned r) := by
  unfold checkWarnings checkWarnAlarm
  split
  · split
    · exact checks_general
    · exact checks_devencoded
  · exact checked_idle r

theorem checked_raisedRds (hit : Bool) : Checked r (raisedRds hit r) := checked_raise rfl hit

theorem checks_rds {now : Int} : Checks r (checkRds a now r) := by
  unfold checkRds checkRdsAlarm
  split
  · cases a.written with
    | none => exact checked_idle r
    | some w =>
      simp only []
      split
      · exact checked_idle r
      · split
        · split
          · unfold checkRdsOutOfRange
            exact (yields_any _).bind (fun hit _ => checked_raisedRds hit)
          · unfold checkRdsEncoded
            simp only []
            split
            · exact checked_raise rfl true
            · exact checked_raisedRds _
          · trivial
        · exact checked_idle r
  · exact checked_idle r

/-- What the checks behind the test of the quality do. -/
theorem checks_evaluate {now : Int} {returned : Bool} : Yields (fun p => ∃ hit, p.1 = (returned || hit) ∧
    Checked r (hit,p.2)) (fun _ => True) (evaluate a now returned r) := by
  unfold evaluate
  refine checks_levels.bind (fun p hp => ?_)
  refine checks_warnings.bind (fun q hq => ?_)
  refine checks_rds.bind (fun s hs => ?_)
  exact ⟨p.1 || q.1 || s.1,by simp only [Bool.or_assoc],(hp.then hq).then hs⟩

/-- The check of an attribute keeps the value, and answers whether the quality it leaves is ALARM or
WARNING; another quality is the one it found. -/
structure Settled (r : Reading) (p : Bool × Reading) : Prop where
  value : p.2.value = r.value
  dataSize : p.2.dataSize = r.dataSize
  hit : p.1 = isAlarmedQuality p.2.quality
  kept : isAlarmedQuality p.2.quality = false → p.2 = r

theorem checks_alarm {now : Int} : Yields (Settled r) (fun _ => True) (checkAlarm a now r) := by
  unfold checkAlarm
  simp only []
  split
  · trivial
  · split
    · exact ⟨rfl,rfl,rfl,fun _ => rfl⟩
    · refine checks_evaluate.imp (fun p hp => ?_) (fun _ h => h)
      obtain ⟨hit,hret,hc⟩ := hp
      cases hit with
      | false =>
        have he : p.2 = r := hc.idle rfl
        rw [Bool.or_false] at hret
        exact ⟨hc.value,hc.dataSize,by rw [hret,he]; rfl,fun _ => he⟩
      | true =>
        have hq : isAlarmedQuality p.2.quality = true := hc.hit rfl
        rw [Bool.or_true] at hret
        exact ⟨hc.value,hc.dataSize,hret.trans hq.symm,fun hn => absurd (hq.symm.trans hn) Bool.noConfusion⟩

end Checked

section Attribute
variable {a : Attribute} {r r' : Reading} {now : Int} {hit : Bool} {m : Method}

/-- `MultiAttribute::check_alarm` evaluates no level of the attribute. -/
def Quiet (a : Attribute) (r : Reading) : Prop := r.quality = .invalid ∨ ¬evaluatesLevel a r

/-- It evaluates none, or the value is there with as many elements as `data_size` says. -/
def Covered (a : Attribute) (r : Reading) : Prop := Quiet a r ∨ r.elements a ≠ none

theorem Covered.there (h : Covered a r) (hq : r.quality ≠ .invalid) (hl : evaluatesLevel a r) :
    r.elements a ≠ none := by
  rcases h with (h | h) | h
  · exact absurd h hq
  · exact absurd hl h
  · exact h

theorem evaluate_yields (hq : r.quality ≠ .invalid) :
    Yields (Settled r) (fun e => e = .noValue → ¬Covered a r) (evaluateAlarm a now r) := by
  unfold evaluateAlarm
  split
  · rename_i hbad
    exact fun _ hc => hc.there hq hbad.1 hbad.2
  · exact Yields.mapError (checks_alarm.imp (fun _ h => h) (fun e _ he => nomatch he))

theorem elements_congr (hv : r'.value = r.value) (hn : r'.dataSize = r.dataSize) :
    r'.elements a = r.elements a := by
  unfold Reading.elements
  rw [hv,hn]

theorem elements_none (h : r.value = none) : r.elements a = none := by
  unfold Reading.elements
  rw [h]
  split
  · rename_i hv
    cases hv
  · rename_i hv
    cases hv
  · rfl

/-- An evaluation raises no level check that was not made before. -/
theorem Covered.kept (h : Covered a r) (hs : Settled r (hit,r')) (hq : r.quality ≠ .invalid) :
    Covered a r' := by
  by_cases hn : r.elements a = none
  · have hl : ¬evaluatesLevel a r := fun hl => h.there hq hl hn
    refine Or.inl (Or.inr (fun hl' => hl ?_))
    cases ha : isAlarmedQuality r'.quality with
    | false =>
      have he : r' = r := hs.kept ha
      rwa [he] at hl'
    | true =>
      obtain ⟨hfwd,hconf⟩ := hl'
      have hvalid : r'.quality ≠ .valid := fun hv => by
        rw [hv] at ha
        cases ha
      refine ⟨Or.inl (hfwd.resolve_right hvalid),?_⟩
      rcases hconf with h | h | ⟨h,-⟩
      · exact Or.inl h
      · exact Or.inr (Or.inl h)
      · exact absurd (ha.symm.trans h) Bool.noConfusion
  · exact Or.inr (by rwa [elements_congr hs.value hs.dataSize])

end Attribute

end CppTango.Device.Alarm
