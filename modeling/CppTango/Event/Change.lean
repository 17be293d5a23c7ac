import CppTango.Device.Alarm
import CppTango.Event.AlarmEvent
import CppTango.Lib.Numbers
import Mathlib.Algebra.Order.Ring.Rat

namespace CppTango.Event

open CppTango.Lib CppTango.Device.Alarm

section Detect

/-- The two bounds of a change criterion, which are doubles. -/
structure Criteria where
  low : ℚ
  high : ℚ
deriving DecidableEq

def intMax : ℚ := 2147483647

/-- Only the first bound tells whether the criterion is configured. -/
def Criteria.isSet (c : Criteria) : Prop := c.low ≠ intMax

def Criteria.Outside (c : Criteria) (delta : Int) : Prop := (delta : ℚ) ≤ c.low ∨ c.high ≤ (delta : ℚ)

instance (c : Criteria) : Decidable c.isSet := inferInstanceAs (Decidable (¬_))

instance (c : Criteria) (delta : Int) : Decidable (c.Outside delta) := inferInstanceAs (Decidable (_ ∨ _))

structure Deltas where
  rel : Int
  abs : Int
deriving DecidableEq, Repr

variable (t : IntType) (rel abs : Criteria)

/-- `delta_change_rel` of one element; there is none if a signed computation overflows. -/
def relDelta (curr prev : Int) : Option Int :=
  if prev ≠ 0 then do
    let d ← t.arith (curr - prev)
    let h ← t.arith (d * 100)
    let q ← t.arith (h.tdiv prev)
    pure (toDouble q)
  else some (if curr = prev then 0 else 100)

def absDelta (curr prev : Int) : Option Int := (t.arith (curr - prev)).map toDouble

/-- The two checks of an element, each made if its criterion is configured. -/
def checkRel (curr prev : Int) (d : Deltas) : Option (Bool × Deltas) :=
  if rel.isSet then (relDelta t curr prev).map (fun x => (decide (rel.Outside x),{d with rel := x}))
  else some (false,d)

def checkAbs (curr prev : Int) (d : Deltas) : Option (Bool × Deltas) :=
  if abs.isSet then (absDelta t curr prev).map (fun x => (decide (abs.Outside x),{d with abs := x}))
  else some (false,d)

def checkElement (curr prev : Int) (d : Deltas) : Option (Bool × Deltas) := do
  let (hit,d) ← checkRel t rel curr prev d
  if hit then pure (true,d) else checkAbs t abs curr prev d

/-- The loop over the elements of two sequences of one length. -/
def checkElements : List Int → List Int → Deltas → Option (Bool × Deltas)
  | curr :: currs,prev :: prevs,d => do
    let (hit,d) ← checkElement t rel abs curr prev d
    if hit then pure (true,d) else checkElements currs prevs d
  | _,_,d => some (false,d)

structure Detected where
  isChange : Bool
  forceChange : Bool
  deltas : Deltas
deriving DecidableEq, Repr

def Detected.none : Detected := ⟨false,false,⟨0,0⟩⟩

def Detected.forced : Detected := ⟨true,true,⟨0,0⟩⟩

/-- `detect_change` for the values of an integer type; `prev` and the criteria are those of the change
events, or of the archive events. -/
def detectChange (r : Reading (List Int)) (prev : LastAttrValue (List Int)) : Option Detected :=
  match r.except with
  | some e => some (if prev.err ∧ compareException e prev.except then .none else .forced)
  | none =>
    if prev.err then some .forced
    else if r.quality = .invalid then
      some (if prev.quality = .invalid then .none else .forced)
    else if prev.quality = .invalid then some .forced
    else if prev.inited = false then some .none
    else if r.value.length ≠ (prev.value.getD []).length then some .forced
    else do
      let (hit,d) ← checkElements t rel abs r.value (prev.value.getD []) ⟨0,0⟩
      pure ⟨hit,false,d⟩

end Detect

section Push
variable (t : IntType) (rel abs : Criteria)

/-- A change event that is pushed, with its filterable data. -/
structure ChangeEvent where
  reading : Reading (List Int)
  deltas : Deltas
  forcedEvent : Bool
  qualityChange : Bool

def detectAndPushChangeEvent (r : Reading (List Int)) (prev : LastAttrValue (List Int)) :
    Option (Option ChangeEvent × LastAttrValue (List Int)) := do
  let (detected,prev) ←
    if prev.inited then (detectChange t rel abs r prev).map (fun d => (d,prev))
    else some (⟨true,false,⟨0,0⟩⟩,prev.store r)
  let qualityChange := decide (r.except = none ∧ prev.quality ≠ r.quality)
  if detected.isChange || qualityChange then
    pure (some ⟨r,detected.deltas,detected.forceChange,qualityChange⟩,prev.store r)
  else pure (none,prev)

/-- Successive calls for one attribute: the events that are pushed, and the last value in the end. -/
def pushChangeEvents (prev : LastAttrValue (List Int)) :
    List (Reading (List Int)) → Option (List ChangeEvent × LastAttrValue (List Int))
  | [] => some ([],prev)
  | r :: rs => do
    let (event,prev) ← detectAndPushChangeEvent t rel abs r prev
    let (events,prev) ← pushChangeEvents prev rs
    pure (event.toList ++ events,prev)

end Push

section Crosses
variable (t : IntType) (rel abs : Criteria)

/-- The numbers the criteria are compared with. -/
def relNumber (curr prev : Int) : Int :=
  if prev ≠ 0 then toDouble (t.wrap ((t.wrap (t.wrap (curr - prev) * 100)).tdiv prev))
  else if curr = prev then 0 else 100

def absNumber (curr prev : Int) : Int := toDouble (t.wrap (curr - prev))

/-- An element meets a criterion of `detect_change`. -/
def Crosses (curr prev : Int) : Prop :=
  rel.isSet ∧ rel.Outside (relNumber t curr prev) ∨ abs.isSet ∧ abs.Outside (absNumber t curr prev)

instance (curr prev : Int) : Decidable (Crosses t rel abs curr prev) := inferInstanceAs (Decidable (_ ∨ _))

variable {t rel abs} {curr prev x y : Int} {hit : Bool} {d d' : Deltas}

theorem arith_some (h : t.arith x = some y) : y = t.wrap x := by
  unfold IntType.arith at h
  split at h
  · cases h
  · exact (Option.some.inj h).symm

theorem relDelta_some (h : relDelta t curr prev = some x) : x = relNumber t curr prev := by
  unfold relDelta at h
  unfold relNumber
  split at h
  · rename_i hp
    obtain ⟨v,hv,h⟩ := Option.bind_eq_some_iff.mp h
    obtain ⟨w,hw,h⟩ := Option.bind_eq_some_iff.mp h
    obtain ⟨q,hq,h⟩ := Option.bind_eq_some_iff.mp h
    cases h
    rw [if_pos hp,arith_some hq,arith_some hw,arith_some hv]
  · rename_i hp
    rw [if_neg hp]
    exact (Option.some.inj h).symm

theorem absDelta_some (h : absDelta t curr prev = some x) : x = absNumber t curr prev := by
  obtain ⟨v,hv,rfl⟩ := Option.map_eq_some_iff.mp h
  rw [absNumber,arith_some hv]

theorem check_rel (h : checkRel t rel curr prev d = some (hit,d')) :
    hit = true ↔ rel.isSet ∧ rel.Outside (relNumber t curr prev) := by
  unfold checkRel at h
  split at h
  · rename_i hs
    obtain ⟨x,hx,he⟩ := Option.map_eq_some_iff.mp h
    cases he
    rw [decide_eq_true_iff,relDelta_some hx]
    exact (and_iff_right hs).symm
  · rename_i hs
    cases h
    exact iff_of_false Bool.false_ne_true (fun hr => hs hr.1)

theorem check_abs (h : checkAbs t abs curr prev d = some (hit,d')) :
    hit = true ↔ abs.isSet ∧ abs.Outside (absNumber t curr prev) := by
  unfold checkAbs at h
  split at h
  · rename_i hs
    obtain ⟨x,hx,he⟩ := Option.map_eq_some_iff.mp h
    cases he
    rw [decide_eq_true_iff,absDelta_some hx]
    exact (and_iff_right hs).symm
  · rename_i hs
    cases h
    exact iff_of_false Bool.false_ne_true (fun hr => hs hr.1)

theorem check_element (h : checkElement t rel abs curr prev d = some (hit,d')) :
    hit = true ↔ Crosses t rel abs curr prev := by
  obtain ⟨⟨hit',d₁⟩,hrel,h⟩ := Option.bind_eq_some_iff.mp h
  have hiff := check_rel hrel
  cases hit' with
  | true =>
    cases h
    exact iff_of_true rfl (Or.inl (hiff.mp rfl))
  | false =>
    have hno : ¬(rel.isSet ∧ rel.Outside (relNumber t curr prev)) :=
      fun hc => Bool.noConfusion (hiff.mpr hc)
    exact (check_abs h).trans (or_iff_right hno).symm

theorem check_elements {currs prevs : List Int} (h : checkElements t rel abs currs prevs d = some (hit,d')) :
    hit = true ↔ ∃ p ∈ currs.zip prevs, Crosses t rel abs p.1 p.2 := by
  induction currs generalizing prevs d with
  | nil =>
    cases h
    simp
  | cons curr currs ih =>
    cases prevs with
    | nil =>
      cases h
      simp
    | cons prev prevs =>
      obtain ⟨⟨hit',d₁⟩,hone,h⟩ := Option.bind_eq_some_iff.mp h
      have hiff := check_element hone
      rw [List.zip_cons_cons]
      simp only [List.mem_cons,exists_eq_or_imp]
      cases hit' with
      | true =>
        cases h
        exact iff_of_true rfl (Or.inl (hiff.mp rfl))
      | false =>
        rw [or_iff_right (fun hc => Bool.noConfusion (hiff.mpr hc))]
        exact ih h

end Crosses

end CppTango.Event
