import Mathlib.Data.List.Basic
import Mathlib.Logic.Function.Basic

namespace CppTango.Lib

section Along
variable {σ α : Type} {step : σ → α → σ} {ok : σ → α → Prop}

/-- Every step of a run is taken in a state where `ok` holds of it. -/
def Along (step : σ → α → σ) (ok : σ → α → Prop) : σ → List α → Prop
  | _,[] => True
  | s,a :: acts => ok s a ∧ Along step ok (step s a) acts

instance decidableAlong [∀ s a, Decidable (ok s a)] :
    (s : σ) → (acts : List α) → Decidable (Along step ok s acts)
  | _,[] => .isTrue trivial
  | s,a :: acts =>
    have := decidableAlong (step s a) acts
    inferInstanceAs (Decidable (_ ∧ _))

theorem along_append {s : σ} {acts more : List α} :
    Along step ok s (acts ++ more) ↔
      Along step ok s acts ∧ Along step ok (acts.foldl step s) more := by
  induction acts generalizing s with
  | nil => simp [Along]
  | cons a acts ih =>
    simp only [List.cons_append,Along,List.foldl_cons,ih]
    exact and_assoc.symm

/-- What every allowed step keeps holds after every allowed run. -/
theorem along_inv {inv : σ → Prop} (hstep : ∀ s a, inv s → ok s a → inv (step s a)) {s : σ}
    {acts : List α} (h : inv s) (hr : Along step ok s acts) : inv (acts.foldl step s) := by
  induction acts generalizing s with
  | nil => exact h
  | cons a acts ih => exact ih (hstep s a h hr.1) hr.2

theorem along_start {s : σ} {acts l : List α} (h : Along step ok s acts) (hl : l <+: acts) :
    Along step ok s l := by
  obtain ⟨more,rfl⟩ := hl
  exact (along_append.mp h).1

/-- Where a step keeps the invariant exactly when it is allowed, a run is allowed exactly when the
invariant holds in every state it reaches. -/
theorem along_iff {inv : σ → Prop} {acts : List α}
    (hstep : ∀ s, ∀ a ∈ acts, inv s → (inv (step s a) ↔ ok s a)) {s : σ} (h : inv s) :
    Along step ok s acts ↔ ∀ l, l <+: acts → inv (l.foldl step s) := by
  induction acts generalizing s with
  | nil =>
    refine ⟨fun _ l hl => ?_,fun _ => trivial⟩
    rw [List.prefix_nil.mp hl]
    exact h
  | cons a acts ih =>
    have hhead := hstep s a List.mem_cons_self h
    have htail := fun s b (hb : b ∈ acts) => hstep s b (List.mem_cons_of_mem a hb)
    constructor
    · rintro ⟨ha,hr⟩ l hl
      cases l with
      | nil => exact h
      | cons b l =>
        obtain ⟨rfl,hrest⟩ := List.cons_prefix_cons.mp hl
        exact (ih htail (hhead.mpr ha)).mp hr l hrest
    · intro hall
      have hi := hall [a] ⟨acts,rfl⟩
      exact ⟨hhead.mp hi,(ih htail hi).mpr
        (fun l hl => hall (a::l) (List.cons_prefix_cons.mpr ⟨rfl,hl⟩))⟩

theorem along_of_all (h : ∀ s a, ok s a) (s : σ) (acts : List α) : Along step ok s acts := by
  induction acts generalizing s with
  | nil => trivial
  | cons a acts ih => exact ⟨h s a,ih _⟩

theorem along_and {legal : σ → α → Prop} {s : σ} {acts : List α} (hl : Along step legal s acts)
    (hr : Along step ok s acts) : Along step (fun s a => legal s a ∧ ok s a) s acts := by
  induction acts generalizing s with
  | nil => trivial
  | cons a acts ih => exact ⟨⟨hl.1,hr.1⟩,ih hl.2 hr.2⟩

/-- Where an allowed step keeps the invariant and another one breaks what follows from it, a run is allowed exactly when
this holds in every state it reaches. -/
theorem along_exact (legal : σ → α → Prop) {inv prop : σ → Prop} {acts : List α} (hprop : ∀ s, inv s → prop s)
    (hstep : ∀ s a, inv s → legal s a → ok s a → inv (step s a))
    (hbreak : ∀ s a, inv s → legal s a → ¬ ok s a → ¬ prop (step s a)) {s : σ} (h : inv s)
    (hl : Along step legal s acts) :
    (∀ l, l <+: acts → prop (l.foldl step s)) ↔ Along step ok s acts := by
  constructor
  · intro hall
    induction acts generalizing s with
    | nil => trivial
    | cons a acts ih =>
      have hok : ok s a := by
        by_contra hn
        exact hbreak s a h hl.1 hn (hall [a] ⟨acts,rfl⟩)
      exact ⟨hok,ih (hstep s a h hl.1 hok) hl.2 (fun l hp => hall (a :: l) (List.cons_prefix_cons.mpr ⟨rfl,hp⟩))⟩
  · intro hr l hp
    have hboth := along_and (along_start hl hp) (along_start hr hp)
    exact hprop _ (along_inv (fun s a hi ha => hstep s a hi ha.1 ha.2) h hboth)

end Along

section Each
variable {ε ι κ σ β : Type}

/-- One thing after the other, until one fails. -/
def forEach (one : ι → σ → Except ε Unit × σ) : List ι → σ → Except ε Unit × σ
  | [],s => (.ok (),s)
  | x :: xs,s =>
    match one x s with
    | (.error e,s') => (.error e,s')
    | (.ok _,s') => forEach one xs s'

section Loop
variable {one : ι → σ → Except ε Unit × σ} {x : ι} {xs : List ι} {s : σ}

theorem forEach_cons_error {e : ε} {s' : σ} (h : one x s = (.error e,s')) :
    forEach one (x :: xs) s = (.error e,s') := by
  rw [forEach,h]

theorem forEach_cons_ok {s' : σ} (h : one x s = (.ok (),s')) : forEach one (x :: xs) s = forEach one xs s' := by
  rw [forEach,h]

/-- What every step keeps is kept, however the loop ends. -/
theorem forEach_keeps (inv : σ → Prop) (hstep : ∀ x ∈ xs, ∀ s, inv s → inv (one x s).2) (hs : inv s) :
    inv (forEach one xs s).2 := by
  induction xs generalizing s with
  | nil => exact hs
  | cons x xs ih =>
    have hx := hstep x List.mem_cons_self s hs
    rcases ho : one x s with ⟨_ | _,s'⟩
    · rw [forEach_cons_error ho]
      rwa [ho] at hx
    · rw [forEach_cons_ok ho]
      rw [ho] at hx
      exact ih (fun y hy => hstep y (List.mem_cons_of_mem _ hy)) hx

theorem forEach_ok (h : (forEach one (x :: xs) s).1 = .ok ()) :
    ∃ s', one x s = (.ok (),s') ∧ forEach one (x :: xs) s = forEach one xs s' ∧
      (forEach one xs s').1 = .ok () := by
  rcases ho : one x s with ⟨_ | _,s'⟩
  · rw [forEach_cons_error ho] at h
    cases h
  · rw [forEach_cons_ok ho] at h
    exact ⟨s',rfl,forEach_cons_ok ho,h⟩

end Loop

section Places
variable [DecidableEq κ]

/-- An action at one place. -/
def actAt (act : β → Except ε β) (k : κ) (f : κ → β) : Except ε Unit × (κ → β) :=
  match act (f k) with
  | .error e => (.error e,f)
  | .ok b => (.ok (),Function.update f k b)

variable {act : β → Except ε β} {ks : List κ} {f : κ → β}

theorem actAt_other (act : β → Except ε β) (f : κ → β) {j k : κ} (h : j ≠ k) : (actAt act k f).2 j = f j := by
  unfold actAt
  split
  · rfl
  · exact Function.update_of_ne h _ _

/-- Nothing happens at other places, also when the action fails at one. -/
theorem acts_other (act : β → Except ε β) (f : κ → β) {k : κ} (h : k ∉ ks) : (forEach (actAt act) ks f).2 k = f k := by
  refine forEach_keeps (fun g : κ → β => g k = f k) (fun j hj g hg => ?_) rfl
  have hkj : k ≠ j := fun hk => h (hk ▸ hj)
  rw [actAt_other act g hkj,hg]

theorem acts_here (hn : ks.Nodup) (hok : (forEach (actAt act) ks f).1 = .ok ()) {k : κ} (hk : k ∈ ks) :
    act (f k) = .ok ((forEach (actAt act) ks f).2 k) := by
  induction ks generalizing f with
  | nil => cases hk
  | cons j ks ih =>
    obtain ⟨hj,hn⟩ := List.nodup_cons.mp hn
    obtain ⟨g,hg,he,hok⟩ := forEach_ok hok
    rw [he]
    have hother : ∀ i, i ≠ j → g i = f i := fun i hi => by
      have := actAt_other act f hi
      rwa [hg] at this
    rcases List.mem_cons.mp hk with rfl | hk
    · rw [acts_other act g hj]
      unfold actAt at hg
      split at hg
      · cases hg
      · rename_i b hb
        cases hg
        rw [hb,Function.update_self]
    · have hkj : k ≠ j := fun he => hj (he ▸ hk)
      rw [← hother k hkj]
      exact ih hn hok hk

end Places

section Orders
variable (meant : ι → Prop) (act : ι → β → Except ε β)

/-- The orders that are meant for one place have been followed there, one after the other. -/
def Followed : List ι → β → β → Prop
  | [],b,b' => b' = b
  | x :: xs,b,b' => ∃ m, (meant x → act x b = .ok m) ∧ (¬ meant x → m = b) ∧ Followed xs m b'

end Orders

end Each

end CppTango.Lib
