import Mathlib.Data.List.Basic
import Mathlib.Logic.Function.Basic

namespace CppTango.Lib

/-- What is done with a lock, which may be handed over to what it protects. -/
inductive LockOp (ε : Type)
  | lock
  | unlock
  | give (e : ε)
deriving DecidableEq, Repr

namespace LockOp

variable {ε κ : Type} [DecidableEq κ]

/-- Only a lock that is held is released or handed over, and that to its own place. -/
def Allowed (home : ε → Prop) (held : Bool) : LockOp ε → Prop
  | .lock => held = false
  | .unlock => held = true
  | .give e => held = true ∧ home e

def holds : LockOp ε → Bool
  | .lock => true
  | _ => false

/-- A lock is treated as it may be, and not held in the end. -/
def Kept (home : ε → Prop) : Bool → List (LockOp ε) → Prop
  | held,[] => held = false
  | held,op :: ops => op.Allowed home held ∧ Kept home op.holds ops

/-- The same of the locks of many keys, used in turns. -/
def AllKept (home : κ → ε → Prop) : (κ → Bool) → List (κ × LockOp ε) → Prop
  | held,[] => ∀ k, held k = false
  | held,e :: es => e.2.Allowed (home e.1) (held e.1) ∧
      AllKept home (Function.update held e.1 e.2.holds) es

/-- What is done with one of them. -/
def own (k : κ) (es : List (κ × LockOp ε)) : List (LockOp ε) :=
  es.filterMap (fun e => if e.1 = k then some e.2 else none)

variable {home : κ → ε → Prop} {held : κ → Bool} {es : List (κ × LockOp ε)}

theorem kept_lock {home : ε → Prop} {ops : List (LockOp ε)} :
    Kept home false (.lock :: ops) ↔ Kept home true ops := and_iff_right rfl

theorem kept_unlock {home : ε → Prop} {ops : List (LockOp ε)} :
    Kept home true (.unlock :: ops) ↔ Kept home false ops := and_iff_right rfl

theorem not_kept_unlock {home : ε → Prop} {ops : List (LockOp ε)} :
    ¬Kept home false (.unlock :: ops) := fun h => Bool.false_ne_true h.1

theorem own_append (k : κ) (es fs : List (κ × LockOp ε)) : own k (es ++ fs) = own k es ++ own k fs :=
  List.filterMap_append

theorem own_same (k : κ) (ops : List (LockOp ε)) : own k (ops.map (fun op => (k,op))) = ops := by
  simp [own,List.filterMap_map]

theorem own_other {k j : κ} (h : j ≠ k) (ops : List (LockOp ε)) :
    own k (ops.map (fun op => (j,op))) = [] := by
  simp [own,h]

/-- The locks do not get in each other's way. -/
theorem allKept_iff : AllKept home held es ↔ ∀ k, Kept (home k) (held k) (own k es) := by
  induction es generalizing held with
  | nil => rfl
  | cons e es ih =>
    obtain ⟨j,op⟩ := e
    have hown : own j ((j,op) :: es) = op :: own j es := List.filterMap_cons_some (if_pos rfl)
    have hother : ∀ k, j ≠ k → own k ((j,op) :: es) = own k es :=
      fun k hk => List.filterMap_cons_none (if_neg hk)
    rw [AllKept,ih]
    constructor
    · rintro ⟨hop,hrest⟩ k
      by_cases hk : j = k
      · subst hk
        rw [hown]
        have hj := hrest j
        rw [Function.update_self] at hj
        exact ⟨hop,hj⟩
      · rw [hother k hk]
        have hj := hrest k
        rwa [Function.update_of_ne (Ne.symm hk)] at hj
    · intro h
      have hj := h j
      rw [hown] at hj
      refine ⟨hj.1,fun k => ?_⟩
      by_cases hk : j = k
      · subst hk
        rw [Function.update_self]
        exact hj.2
      · rw [Function.update_of_ne (Ne.symm hk),← hother k hk]
        exact h k

end LockOp

end CppTango.Lib
