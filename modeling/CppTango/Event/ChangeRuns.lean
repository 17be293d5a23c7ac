import CppTango.Event.Change

namespace CppTango.Event

open CppTango.Lib

section Fresh

/-- The last value is exactly what was pushed; for an error it is the error list. -/
def Describes (prev : LastAttrValue (List Int)) (pushed : Reading (List Int)) : Prop :=
  match pushed.except with
  | some e => prev.err = true ∧ prev.except = e
  | none => prev.err = false ∧ prev.quality = pushed.quality ∧ prev.value = some pushed.value

/-- No event is missing for a reading. -/
inductive Fresh (t : IntType) (rel abs : Criteria) (pushed current : Reading (List Int)) : Prop
  | current (h : pushed = current)
  | sameError (e : DevErrorList) (hp : pushed.except = some e) (hc : current.except = some e)
  | invalid (hp : pushed.except = none) (hc : current.except = none) (hpq : pushed.quality = .invalid)
    (hcq : current.quality = .invalid)
  | within (hp : pushed.except = none) (hc : current.except = none) (hq : pushed.quality = current.quality)
    (hl : pushed.value.length = current.value.length)
    (hv : ∀ p ∈ current.value.zip pushed.value, ¬Crosses t rel abs p.1 p.2)

variable {t : IntType} {rel abs : Criteria} {r p c : Reading (List Int)}
  {prev prev' : LastAttrValue (List Int)} {detected : Detected} {event : Option ChangeEvent}
  {events : List ChangeEvent} {rs : List (Reading (List Int))}

theorem store_describes : Describes (prev.store r) r ∧ (prev.store r).inited = true := by
  unfold Describes LastAttrValue.store
  cases r.except with
  | none => exact ⟨⟨rfl,rfl,rfl⟩,rfl⟩
  | some e => exact ⟨⟨rfl,rfl⟩,rfl⟩

theorem described_error (hd : Describes prev p) (he : prev.err = true) : p.except = some prev.except := by
  unfold Describes at hd
  cases hp : p.except with
  | none =>
    rw [hp] at hd
    exact Bool.noConfusion (hd.1.symm.trans he)
  | some e =>
    rw [hp] at hd
    rw [hd.2]

theorem described_value (hd : Describes prev p) (he : prev.err = false) :
    p.except = none ∧ prev.quality = p.quality ∧ prev.value = some p.value := by
  unfold Describes at hd
  cases hp : p.except with
  | none =>
    rw [hp] at hd
    exact ⟨rfl,hd.2⟩
  | some e =>
    rw [hp] at hd
    exact Bool.noConfusion (hd.1.symm.trans he)

/-- What is behind a reading that is not found to be a change. -/
theorem unchanged_fresh (hd : Describes prev p) (hin : prev.inited = true)
    (h : detectChange t rel abs r prev = some detected) (hno : detected.isChange = false)
    (hq : r.except = none → prev.quality = r.quality) : Fresh t rel abs p r := by
  have hforced : detected ≠ .forced := fun hf => by
    rw [hf] at hno
    cases hno
  unfold detectChange at h
  cases hr : r.except with
  | some e =>
    rw [hr] at h
    simp only [] at h
    split at h
    · rename_i hsame
      have he : e = prev.except := compareException_iff.mp hsame.2
      exact .sameError e (he ▸ described_error hd hsame.1) hr
    · exact absurd (Option.some.inj h).symm hforced
  | none =>
    rw [hr] at h
    simp only [] at h
    split at h
    · exact absurd (Option.some.inj h).symm hforced
    · rename_i herr
      obtain ⟨hp,hpq,hpv⟩ := described_value hd (Bool.eq_false_iff.mpr herr)
      have hquality : p.quality = r.quality := hpq.symm.trans (hq hr)
      split at h
      · rename_i hinv
        exact .invalid hp hr (hquality.trans hinv) hinv
      · split at h
        · exact absurd (Option.some.inj h).symm hforced
        · rw [hpv,Option.getD_some,if_neg (by rw [hin]; exact Bool.true_eq_false.mp)] at h
          split at h
          · exact absurd (Option.some.inj h).symm hforced
          · rename_i hlen
            obtain ⟨⟨hit,d⟩,hc,h⟩ := Option.bind_eq_some_iff.mp h
            cases h
            refine .within hp hr hquality (not_not.mp hlen).symm (fun q hmem hcross => ?_)
            exact Bool.noConfusion (hno.symm.trans ((check_elements hc).mpr ⟨q,hmem,hcross⟩))

/-- One call: the reading is pushed and kept, or it is behind none. -/
theorem push_step (hd : Describes prev p) (hin : prev.inited = true)
    (h : detectAndPushChangeEvent t rel abs r prev = some (event,prev')) :
    (∃ e, event = some e ∧ e.reading = r ∧ prev' = prev.store r) ∨
      event = none ∧ prev' = prev ∧ Fresh t rel abs p r := by
  unfold detectAndPushChangeEvent at h
  rw [if_pos hin] at h
  obtain ⟨⟨detected,prev₁⟩,hdet,h⟩ := Option.bind_eq_some_iff.mp h
  obtain ⟨d,hfound,he⟩ := Option.map_eq_some_iff.mp hdet
  cases he
  simp only [] at h
  split at h
  · cases h
    exact Or.inl ⟨_,rfl,rfl,rfl⟩
  · rename_i hno
    cases h
    simp only [Bool.or_eq_true,decide_eq_true_iff,not_or,Bool.not_eq_true,not_and,not_not] at hno
    exact Or.inr ⟨rfl,rfl,unchanged_fresh hd hin hfound hno.1 hno.2⟩

/-- A run from a last value that describes `p`, pushed before or with the reading `c`. -/
theorem push_run (hd : Describes prev p) (hin : prev.inited = true) (hf : Fresh t rel abs p c)
    (h : pushChangeEvents t rel abs prev rs = some (events,prev')) :
    Describes prev' ((events.getLast?.map ChangeEvent.reading).getD p) ∧
      Fresh t rel abs ((events.getLast?.map ChangeEvent.reading).getD p) (rs.getLast?.getD c) := by
  induction rs generalizing prev p c events with
  | nil =>
    cases h
    exact ⟨hd,hf⟩
  | cons r rs ih =>
    obtain ⟨⟨event,prev₁⟩,hone,h⟩ := Option.bind_eq_some_iff.mp h
    obtain ⟨⟨rest,prev₂⟩,hrest,h⟩ := Option.bind_eq_some_iff.mp h
    cases h
    have hlast : (r :: rs).getLast?.getD c = rs.getLast?.getD r := by
      rw [List.getLast?_cons,Option.getD_some]
    rw [hlast]
    rcases push_step hd hin hone with ⟨e,rfl,rfl,rfl⟩ | ⟨rfl,rfl,hfresh⟩
    · obtain ⟨hd',hf'⟩ := ih store_describes.1 store_describes.2 (.current rfl) hrest
      have hevents : (((some e).toList ++ rest).getLast?.map ChangeEvent.reading).getD p =
          (rest.getLast?.map ChangeEvent.reading).getD e.reading := by
        change ((e :: rest).getLast?.map ChangeEvent.reading).getD p = _
        rw [List.getLast?_cons]
        cases rest.getLast? <;> rfl
      rw [hevents]
      exact ⟨hd',hf'⟩
    · exact ih hd hin hfresh hrest

/-- The first call pushes. -/
theorem push_first (hin : prev.inited = false)
    (h : detectAndPushChangeEvent t rel abs r prev = some (event,prev')) :
    ∃ e, event = some e ∧ e.reading = r ∧ Describes prev' r ∧ prev'.inited = true := by
  unfold detectAndPushChangeEvent at h
  rw [if_neg (by rw [hin]; exact Bool.false_ne_true)] at h
  cases h
  exact ⟨_,rfl,rfl,store_describes⟩

def unset : Criteria := ⟨intMax,intMax⟩

/-- An error, and a value within the criterion of the one that follows it. -/
def fewReadings : List (Reading (List Int)) :=
  [⟨some [],.valid,[]⟩,⟨none,.valid,[7]⟩,⟨none,.valid,[9]⟩]

end Fresh

open CppTango.Lib CppTango.Device.Alarm

section Exact
variable (t : IntType) (rel abs : Criteria) (curr prev : Int)

/-- The relative change in percent, truncated. -/
def percent : Int := if prev ≠ 0 then ((curr - prev) * 100).tdiv prev else if curr = prev then 0 else 100

/-- An element meets a criterion over the integers. -/
def Meets : Prop :=
  rel.isSet ∧ rel.Outside (percent curr prev) ∨ abs.isSet ∧ abs.Outside (curr - prev)

/-- The difference of an unsigned type does not go below 0, nor is its hundredfold too large, and the
quotient is a double. -/
def FitsRel : Prop :=
  prev ≠ 0 → (t.promoted.signed = true ∨ prev ≤ curr ∧ (curr - prev) * 100 < 2 ^ t.promoted.bits) ∧
    toDouble (((curr - prev) * 100).tdiv prev) = ((curr - prev) * 100).tdiv prev

def FitsAbs : Prop :=
  (t.promoted.signed = true ∨ prev ≤ curr) ∧ toDouble (curr - prev) = curr - prev

/-- What the configured criteria are compared with is computed exactly. -/
def Exact : Prop := (rel.isSet → FitsRel t curr prev) ∧ (abs.isSet → FitsAbs t curr prev)

instance : Decidable (Exact t rel abs curr prev) := by
  unfold Exact FitsRel FitsAbs
  infer_instance

instance : Decidable (Meets rel abs curr prev) := inferInstanceAs (Decidable (_ ∨ _))

end Exact

section Detection
variable {t : IntType} {rel abs : Criteria} {curr prev x : Int}

theorem wrap_signed (h : t.promoted.signed = true) : t.wrap x = x := if_pos h

theorem wrap_small (h : 0 ≤ x) (hx : x < 2 ^ t.promoted.bits) : t.wrap x = x := by
  unfold IntType.wrap
  split
  · rfl
  · exact Int.emod_eq_of_lt h hx

/-- The values of an unsigned type are not negative and below its power of 2. -/
theorem unsigned_range (hs : ¬t.promoted.signed = true) (hx : t.Holds x) :
    0 ≤ x ∧ x < 2 ^ t.promoted.bits := by
  have hp : t.promoted = t := by
    by_cases hb : t.bits < 32
    · rw [IntType.promoted,if_pos hb] at hs
      exact absurd rfl hs
    · rw [IntType.promoted,if_neg hb]
  rw [hp] at hs ⊢
  have hmin := IntType.min_unsigned (Bool.eq_false_iff.mpr hs)
  have hmax : t.max = 2 ^ t.bits - 1 := if_neg hs
  obtain ⟨hlo,hhi⟩ := hx
  omega

theorem fits_rel (hc : t.Holds curr) (hp : t.Holds prev) (h : FitsRel t curr prev) :
    relNumber t curr prev = percent curr prev := by
  unfold relNumber percent
  split
  · rename_i hne
    obtain ⟨hw,hd⟩ := h hne
    by_cases hs : t.promoted.signed = true
    · rw [wrap_signed hs,wrap_signed hs,wrap_signed hs,hd]
    · obtain ⟨hle,hlt⟩ := hw.resolve_left hs
      have hprev := unsigned_range hs hp
      have hcurr := unsigned_range hs hc
      have hnum : 0 ≤ (curr - prev) * 100 := by omega
      have hquot : 0 ≤ ((curr - prev) * 100).tdiv prev := Int.tdiv_nonneg hnum hprev.1
      have hle' : ((curr - prev) * 100).tdiv prev ≤ (curr - prev) * 100 := Int.tdiv_le_self prev hnum
      rw [wrap_small (by omega : 0 ≤ curr - prev) (by omega),wrap_small hnum hlt,
        wrap_small hquot (by omega),hd]
  · rfl

theorem fits_abs (hc : t.Holds curr) (hp : t.Holds prev) (h : FitsAbs t curr prev) :
    absNumber t curr prev = curr - prev := by
  obtain ⟨hw,hd⟩ := h
  unfold absNumber
  by_cases hs : t.promoted.signed = true
  · rw [wrap_signed hs,hd]
  · have hle := hw.resolve_left hs
    have hcurr := unsigned_range hs hc
    have hprev := unsigned_range hs hp
    rw [wrap_small (by omega) (by omega),hd]

/-- An element that is computed exactly crosses a bound where it should. -/
theorem exact_crosses (hc : t.Holds curr) (hp : t.Holds prev) (h : Exact t rel abs curr prev) :
    Crosses t rel abs curr prev ↔ Meets rel abs curr prev := by
  unfold Crosses Meets
  refine or_congr (and_congr_right (fun hr => ?_)) (and_congr_right (fun ha => ?_))
  · rw [fits_rel hc hp (h.1 hr)]
  · rw [fits_abs hc hp (h.2 ha)]

/-- Differences of numbers of at most 32 bits are doubles, and so are their hundredfold. -/
theorem narrow_exact (hb : t.bits ≤ 32) (hs : t.promoted.signed = true) (hc : t.Holds curr)
    (hp : t.Holds prev) : Exact t rel abs curr prev := by
  have hhold : ∀ y, t.Holds y → y.natAbs ≤ 2 ^ 32 := fun y hy => by
    have hpow : (2 : Int) ^ t.bits ≤ 2 ^ 32 := pow_le_pow_right₀ (by norm_num) hb
    have hpow' : (2 : Int) ^ (t.bits - 1) ≤ 2 ^ 32 := pow_le_pow_right₀ (by norm_num) (by omega)
    obtain ⟨hlo,hhi⟩ := hy
    unfold IntType.min at hlo
    unfold IntType.max at hhi
    split at hlo <;> split at hhi <;> omega
  have hcurr := hhold curr hc
  have hprev := hhold prev hp
  refine ⟨fun _ _ => ⟨Or.inl hs,toDouble_small ?_⟩,fun _ => ⟨Or.inl hs,toDouble_small (by omega)⟩⟩
  have hdiv : (((curr - prev) * 100).tdiv prev).natAbs ≤ ((curr - prev) * 100).natAbs := by
    rw [Int.natAbs_tdiv]
    exact Nat.div_le_self _ _
  omega

end Detection

section Claim
variable {k : IntKind} {rel abs : Criteria} {r : Reading (List Int)} {prev : LastAttrValue (List Int)}
  {detected : Detected} {old : List Int}

/-- Two values without error are compared element by element. -/
theorem detects_crossing (hr : r.except = none) (he : prev.err = false) (hrq : r.quality ≠ .invalid)
    (hpq : prev.quality ≠ .invalid) (hin : prev.inited = true) (hv : prev.value = some old)
    (hl : r.value.length = old.length) (h : detectChange k.type rel abs r prev = some detected) :
    detected.isChange = true ↔ ∃ p ∈ r.value.zip old, Crosses k.type rel abs p.1 p.2 := by
  unfold detectChange at h
  rw [hr] at h
  simp only [he,hin,hv,Option.getD_some,Bool.false_eq_true,Bool.true_eq_false,if_false] at h
  rw [if_neg hrq,if_neg hpq,if_neg (not_not.mpr hl)] at h
  obtain ⟨⟨hit,d⟩,hc,h⟩ := Option.bind_eq_some_iff.mp h
  cases h
  exact check_elements hc

/-- Two predicates agree somewhere in a list, if they agree on a part of it. -/
theorem exists_agree {α : Type} {l : List α} {E C M : α → Prop} (h : ∀ p ∈ l, E p → (C p ↔ M p)) :
    ((∃ p ∈ l, C p) ↔ ∃ p ∈ l, M p) ↔
      (∃ p ∈ l, E p ∧ M p) ∨ ((∃ p ∈ l, ¬E p ∧ C p) ↔ ∃ p ∈ l, ¬E p ∧ M p) := by
  have hsplit : ∀ P : α → Prop, (∃ p ∈ l, P p) ↔ (∃ p ∈ l, E p ∧ P p) ∨ ∃ p ∈ l, ¬E p ∧ P p := fun P => by
    constructor
    · rintro ⟨p,hp,hP⟩
      by_cases hE : E p
      · exact Or.inl ⟨p,hp,hE,hP⟩
      · exact Or.inr ⟨p,hp,hE,hP⟩
    · rintro (⟨p,hp,-,hP⟩ | ⟨p,hp,-,hP⟩) <;> exact ⟨p,hp,hP⟩
  have hsame : (∃ p ∈ l, E p ∧ C p) ↔ ∃ p ∈ l, E p ∧ M p :=
    exists_congr (fun p => and_congr_right (fun hp => and_congr_right (h p hp)))
  rw [hsplit C,hsplit M,hsame]
  by_cases hM : ∃ p ∈ l, E p ∧ M p
  · simp only [hM,true_or]
  · simp only [hM,false_or]

end Claim

end CppTango.Event
