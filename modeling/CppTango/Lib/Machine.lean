import Mathlib.Algebra.Order.Ring.Int
import Mathlib.Tactic.NormNum
import Mathlib.Tactic.Positivity
import Mathlib.Tactic.Ring

namespace CppTango.Lib

/-- An integer type of a machine. -/
structure IntType where
  signed : Bool
  bits : Nat
deriving DecidableEq, Repr

namespace IntType

def min (t : IntType) : Int := if t.signed then -2 ^ (t.bits - 1) else 0

def max (t : IntType) : Int := if t.signed then 2 ^ (t.bits - 1) - 1 else 2 ^ t.bits - 1

def Holds (t : IntType) (x : Int) : Prop := t.min ≤ x ∧ x ≤ t.max

instance (t : IntType) (x : Int) : Decidable (t.Holds x) := inferInstanceAs (Decidable (_ ∧ _))

/-- The numbers of the type. -/
abbrev Val (t : IntType) : Type := {x : Int // t.Holds x}

def ints {t : IntType} (xs : List t.Val) : List Int := xs.map Subtype.val

/-- Types narrower than `int` are computed with in `int`. -/
def promoted (t : IntType) : IntType := if t.bits < 32 then ⟨true,32⟩ else t

/-- The result of an operation on numbers of the type, if it fits. -/
def computed (t : IntType) (x : Int) : Option Int := if t.promoted.Holds x then some x else none

/-- A number of an unsigned type starts again at 0, -/
def wrap (t : IntType) (x : Int) : Int := if t.promoted.signed then x else x % 2 ^ t.promoted.bits

/-- and one of a signed type has to fit. -/
def arith (t : IntType) (x : Int) : Option Int :=
  if t.promoted.signed = true ∧ ¬t.promoted.Holds x then none else some (t.wrap x)

variable {t : IntType} {x : Int}

@[simp] theorem length_ints (xs : List t.Val) : (ints xs).length = xs.length := List.length_map _

theorem holds_of_mem_ints {xs : List t.Val} (h : x ∈ ints xs) : t.Holds x := by
  obtain ⟨v,-,rfl⟩ := List.mem_map.mp h
  exact v.property

private theorem two_pow_le {k : Nat} (h : k ≤ 31) : (2 : Int) ^ k ≤ 2 ^ 31 :=
  pow_le_pow_right₀ (by norm_num) h

theorem min_promoted : t.promoted.min ≤ t.min := by
  by_cases hb : t.bits < 32
  · have hp := two_pow_le (k := t.bits - 1) (by omega)
    rw [promoted,if_pos hb]
    change -2 ^ 31 ≤ t.min
    unfold min
    split
    · simpa using hp
    · norm_num
  · rw [promoted,if_neg hb]

theorem max_promoted : t.max ≤ t.promoted.max := by
  by_cases hb : t.bits < 32
  · have hp := two_pow_le (k := t.bits - 1) (by omega)
    have hp' := two_pow_le (k := t.bits) (by omega)
    rw [promoted,if_pos hb]
    change t.max ≤ 2 ^ 31 - 1
    unfold max
    split
    · simpa using hp
    · simpa using hp'
  · rw [promoted,if_neg hb]

theorem computed_of_holds (h : t.Holds x) : t.computed x = some x :=
  if_pos ⟨min_promoted.trans h.1,h.2.trans max_promoted⟩

theorem min_nonpos : t.min ≤ 0 := by
  unfold min
  split
  · exact neg_nonpos.mpr (by positivity)
  · exact le_rfl

/-- A signed type has one negative number more. -/
theorem min_signed (h : t.signed = true) : t.min = -t.max - 1 := by
  unfold min max
  rw [if_pos h,if_pos h]
  ring

theorem min_unsigned (h : t.signed = false) : t.min = 0 := by
  unfold min
  rw [h]
  rfl

end IntType

end CppTango.Lib
