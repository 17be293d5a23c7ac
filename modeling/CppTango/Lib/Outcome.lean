import Mathlib.Data.List.Basic

namespace CppTango.Lib

variable {ε α β : Type} {x : Except ε α} {f : α → Except ε β}

theorem ok_bind (a : α) : ((.ok a : Except ε α) >>= f) = f a := rfl

theorem except_bind_ok {b : β} : (x >>= f) = .ok b ↔ ∃ a, x = .ok a ∧ f a = .ok b := by
  cases x with
  | error e =>
    constructor
    · intro h
      cases h
    · rintro ⟨a,h,-⟩
      cases h
  | ok a =>
    constructor
    · intro h
      exact ⟨a,rfl,h⟩
    · rintro ⟨a',ha,h⟩
      cases ha
      exact h

theorem except_map_ok {g : α → β} {b : β} : x.map g = .ok b ↔ ∃ a, x = .ok a ∧ g a = b := by
  cases x with
  | error e =>
    constructor
    · intro h
      cases h
    · rintro ⟨a,h,-⟩
      cases h
  | ok a =>
    constructor
    · intro h
      exact ⟨a,rfl,Except.ok.inj h⟩
    · rintro ⟨a',ha,rfl⟩
      cases ha
      rfl

/-- What holds of a result, or of the exception in its place. -/
def Yields (post : α → Prop) (exc : ε → Prop) : Except ε α → Prop
  | .ok a => post a
  | .error e => exc e

theorem yields_any (x : Except ε α) : Yields (fun _ => True) (fun _ => True) x := by
  cases x with
  | error e => trivial
  | ok a => trivial

variable {post post' : α → Prop} {after : β → Prop} {exc exc' : ε → Prop}

theorem Yields.imp (h : Yields post exc x) (hp : ∀ a, post a → post' a) (he : ∀ e, exc e → exc' e) :
    Yields post' exc' x := by
  cases x with
  | error e => exact he e h
  | ok a => exact hp a h

theorem Yields.bind (h : Yields post exc x) (hf : ∀ a, post a → Yields after exc (f a)) :
    Yields after exc (x >>= f) := by
  cases x with
  | error e => exact h
  | ok a => exact hf a h

theorem Yields.of_ok {a : α} (h : Yields post exc x) (hx : x = .ok a) : post a := by
  rw [hx] at h
  exact h

theorem Yields.of_error {e : ε} (h : Yields post exc x) (hx : x = .error e) : exc e := by
  rw [hx] at h
  exact h

theorem Yields.mapError {ε' : Type} {g : ε → ε'} {exc : ε' → Prop}
    (h : Yields post (fun e => exc (g e)) x) : Yields post exc (x.mapError g) := by
  cases x with
  | error e => exact h
  | ok a => exact h

theorem Yields.map {g : α → β} (h : Yields (fun a => after (g a)) exc x) : Yields after exc (x.map g) := by
  cases x with
  | error e => exact h
  | ok a => exact h

section Search
variable (f : Nat → Except ε Bool)

/-- A loop over the positions from `i` on that stops at the first hit. -/
def searchFrom : Nat → Nat → Except ε Bool
  | _,0 => .ok false
  | i,n+1 => do
    let hit ← f i
    if hit then pure true else searchFrom (i+1) n

/-- A test that returns, and what its answer says. -/
def Decides (x : Except ε Bool) (p : Prop) : Prop := ∃ b, x = .ok b ∧ (b = true ↔ p)

variable {f}

theorem Decides.congr {x : Except ε Bool} {p q : Prop} (h : Decides x p) (hpq : p ↔ q) : Decides x q := by
  obtain ⟨b,hx,hb⟩ := h
  exact ⟨b,hx,hb.trans hpq⟩

theorem Decides.orElse {c p : Prop} [Decidable c] {x : Except ε Bool} (ht : c → p)
    (he : ¬c → Decides x p) : Decides (if c then .ok true else x) p := by
  by_cases hc : c
  · exact ⟨true,if_pos hc,fun _ => ht hc,fun _ => rfl⟩
  · rw [if_neg hc]
    exact he hc

theorem searchFrom_decides {p : Nat → Prop} {i n : Nat}
    (h : ∀ j, i ≤ j → j < i + n → Decides (f j) (p j)) :
    Decides (searchFrom f i n) (∃ j, i ≤ j ∧ j < i + n ∧ p j) := by
  induction n generalizing i with
  | zero => exact ⟨false,rfl,by simp; omega⟩
  | succ n ih =>
    obtain ⟨hit,hi,hp⟩ := h i (by omega) (by omega)
    rw [searchFrom,hi]
    cases hit with
    | true => exact ⟨true,rfl,fun _ => ⟨i,by omega,by omega,hp.mp rfl⟩,fun _ => rfl⟩
    | false =>
      have htail := ih (i := i + 1) (fun j h1 h2 => h j (by omega) (by omega))
      refine htail.congr ⟨?_,?_⟩
      · rintro ⟨j,h1,h2,hj⟩
        exact ⟨j,by omega,by omega,hj⟩
      · rintro ⟨j,h1,h2,hj⟩
        have hne : j ≠ i := by
          rintro rfl
          exact absurd (hp.mpr hj) Bool.false_ne_true
        exact ⟨j,by omega,by omega,hj⟩

end Search

end CppTango.Lib
