import Mathlib.Algebra.Order.Ring.Int
import Mathlib.Algebra.Ring.Int.Defs
import Mathlib.Algebra.Ring.Nat
import Mathlib.Data.List.TakeWhile

namespace CppTango.Lib

section Decimal
/-- An integer as a stream writes it. -/
def intText (i : Int) : List Char :=
  if i < 0 then '-' :: Nat.toDigits 10 i.natAbs else Nat.toDigits 10 i.natAbs

def isSpace (c : Char) : Bool := c = ' ' || ('\t' ≤ c && c ≤ '\r')

/-- The digits at the start of a text. -/
def readNat (s : List Char) : Option Nat :=
  if s.takeWhile Char.isDigit = [] then none
  else some (Nat.ofDigitChars 10 (s.takeWhile Char.isDigit) 0)

/-- Sign and magnitude of the integer a stream reads: white space is skipped, what follows the
digits is left. -/
def readSign (s : List Char) : Option (Bool × Nat) :=
  match s.dropWhile isSpace with
  | '-'::ds => (readNat ds).map (fun n => (true,n))
  | '+'::ds => (readNat ds).map (fun n => (false,n))
  | ds => (readNat ds).map (fun n => (false,n))

/-- Read into a signed integer of `w` bits; the stream fails when it does not fit. -/
def readSigned (w : Nat) (s : List Char) : Option Int :=
  (readSign s).bind (fun (neg,n) =>
    let v : Int := if neg then -n else n
    if -2 ^ (w-1) ≤ v ∧ v < 2 ^ (w-1) then some v else none)

/-- What `>>` leaves in an `int`: 0 when there is no number, the bound when it does not fit. -/
def streamInt (s : List Char) : Int :=
  match readSign s with
  | none => 0
  | some (neg,n) => max (-2147483648) (min 2147483647 (if neg then -(n : Int) else n))

/-- Read into an unsigned integer of `w` bits; a negative number is taken modulo 2^64 first. -/
def readUnsigned (w : Nat) (s : List Char) : Option Nat :=
  (readSign s).bind (fun (neg,n) =>
    if 2 ^ 64 ≤ n then none
    else
      let v := if neg then (2 ^ 64 - n) % 2 ^ 64 else n
      if v < 2 ^ w then some v else none)

theorem digit_of_mem {n : Nat} {c : Char} (h : c ∈ Nat.toDigits 10 n) : c.isDigit = true :=
  Nat.isDigit_of_mem_toDigits (by decide) (by decide) h

theorem readNat_toDigits (n : Nat) : readNat (Nat.toDigits 10 n) = some n := by
  have ht : (Nat.toDigits 10 n).takeWhile Char.isDigit = Nat.toDigits 10 n :=
    List.takeWhile_eq_self_iff.mpr (fun c hc => digit_of_mem hc)
  unfold readNat
  rw [ht,if_neg Nat.toDigits_ne_nil,Nat.ofDigitChars_ten_toDigits]

theorem digit_not_space {c : Char} (h : c.isDigit = true) : isSpace c = false ∧ c ≠ '-' ∧ c ≠ '+' := by
  have hd : 48 ≤ c.val.toNat ∧ c.val.toNat ≤ 57 := by
    simpa [Char.isDigit,UInt32.le_iff_toNat_le] using h
  refine ⟨?_,?_,?_⟩
  · have h1 : c ≠ ' ' := by
      rintro rfl
      exact absurd hd.1 (by decide)
    have h2 : ¬ c ≤ '\r' := by
      intro hle
      have : c.val.toNat ≤ 13 := hle
      omega
    simp [isSpace,h1,h2]
  · rintro rfl
    exact absurd hd.1 (by decide)
  · rintro rfl
    exact absurd hd.1 (by decide)

theorem readSign_digits {s : List Char} {v : Nat} (hd : ∀ c ∈ s, c.isDigit = true) (hr : readNat s = some v) :
    readSign s = some (false,v) := by
  cases s with
  | nil => cases hr
  | cons c s =>
    obtain ⟨hs,hm,hp⟩ := digit_not_space (hd c List.mem_cons_self)
    unfold readSign
    rw [List.dropWhile_cons_of_neg (by rw [hs]; decide)]
    split
    next heq =>
      cases heq
      exact absurd rfl hm
    next heq =>
      cases heq
      exact absurd rfl hp
    next => rw [hr]; rfl

/-- A number of digits is what the stream reads, up to the bound. -/
theorem streamInt_digits {s : List Char} {v : Nat} (hd : ∀ c ∈ s, c.isDigit = true) (hr : readNat s = some v) :
    streamInt s = min 2147483647 v := by
  unfold streamInt
  rw [readSign_digits hd hr]
  simp only [Bool.false_eq_true,if_false]
  omega

theorem readSign_intText (i : Int) : readSign (intText i) = some (decide (i < 0),i.natAbs) := by
  unfold readSign intText
  by_cases h : i < 0
  · have hd : ('-' :: Nat.toDigits 10 i.natAbs).dropWhile isSpace =
        '-' :: Nat.toDigits 10 i.natAbs := List.dropWhile_cons_of_neg (by decide)
    rw [if_pos h,hd]
    simp [readNat_toDigits,h]
  · rw [if_neg h]
    obtain ⟨c,ds,hc⟩ := List.exists_cons_of_ne_nil (Nat.toDigits_ne_nil (n := i.natAbs) (b := 10))
    have hmem : c ∈ Nat.toDigits 10 i.natAbs := by
      rw [hc]
      exact List.mem_cons_self
    obtain ⟨hs,hm,hp⟩ := digit_not_space (digit_of_mem hmem)
    have hd : (Nat.toDigits 10 i.natAbs).dropWhile isSpace = Nat.toDigits 10 i.natAbs := by
      rw [hc]
      exact List.dropWhile_cons_of_neg (by simp [hs])
    have hr := readNat_toDigits i.natAbs
    rw [hd]
    rw [hc] at hr ⊢
    split
    next heq =>
      cases heq
      exact absurd rfl hm
    next heq =>
      cases heq
      exact absurd rfl hp
    next => simp [hr,h]

/-- What is written is read back, when it fits. -/
theorem readSigned_intText (w : Nat) (i : Int) (h : -2 ^ (w-1) ≤ i ∧ i < 2 ^ (w-1)) :
    readSigned w (intText i) = some i := by
  have hv : (if decide (i < 0) = true then -(i.natAbs : Int) else (i.natAbs : Int)) = i := by
    split
    next hneg =>
      have := of_decide_eq_true hneg
      omega
    next hneg =>
      have : ¬ i < 0 := fun hlt => hneg (decide_eq_true hlt)
      omega
  simp only [readSigned,readSign_intText,Option.bind_some,hv,if_pos h]

theorem readUnsigned_intText (w n : Nat) (hw : w ≤ 64) (h : n < 2 ^ w) :
    readUnsigned w (intText n) = some n := by
  have h64 : ¬ 2 ^ 64 ≤ n := by
    have : 2 ^ w ≤ 2 ^ 64 := Nat.pow_le_pow_right (by decide) hw
    omega
  have hneg : ¬ ((n : Int) < 0) := by omega
  simp only [readUnsigned,readSign_intText,Option.bind_some,Int.natAbs_natCast,hneg,decide_false,
    Bool.false_eq_true,if_false,if_neg h64,if_pos h]

end Decimal

section Doubles
/-- A natural number rounded to 53 bits, ties to even. -/
def roundNat (n : Nat) : Nat :=
  let k := n.log2 + 1 - 53
  let q := n / 2 ^ k
  let r := n % 2 ^ k
  if 2 * r < 2 ^ k ∨ 2 * r = 2 ^ k ∧ q % 2 = 0 then q * 2 ^ k else (q + 1) * 2 ^ k

/-- The double an integer is converted to. -/
def toDouble (x : Int) : Int := x.sign * roundNat x.natAbs

theorem roundNat_small {n : Nat} (h : n < 2 ^ 53) : roundNat n = n := by
  have hlog : n.log2 < 53 := by
    by_cases hn : n = 0
    · rw [hn]
      decide
    · exact (Nat.log2_lt hn).mpr h
  have hk : n.log2 + 1 - 53 = 0 := by omega
  simp [roundNat,hk,Nat.mod_one]

theorem toDouble_small {x : Int} (h : x.natAbs < 2 ^ 53) : toDouble x = x := by
  rw [toDouble,roundNat_small h,Int.sign_mul_natAbs]

end Doubles

end CppTango.Lib
