import CppTango.Device.StrProps
import CppTango.Lib.Numbers

namespace CppTango.Device.Conf

open CppTango.Lib StrProps

/-- The integer a text of decimal digits with an optional sign is. -/
def numeral (text : String) : Option Int :=
  match text.toList with
  | '-'::ds => (digits ds).map (fun n => -Int.ofNat n)
  | '+'::ds => (digits ds).map Int.ofNat
  | ds => (digits ds).map Int.ofNat
where
  digits (ds : List Char) : Option Nat :=
    if ds ≠ [] ∧ ds.all Char.isDigit then some (Nat.ofDigitChars 10 ds 0) else none

def intString (n : Int) : String := String.ofList (intText n)

/-- The integers of a type that holds integers; an enumeration and the data of a
`DevEncoded` are held as `DevShort` and `DevUChar`. -/
def bounds : AttrType → Option (Int × Int)
  | .devShort | .devEnum => some (-2 ^ 15,2 ^ 15)
  | .devLong => some (-2 ^ 31,2 ^ 31)
  | .devLong64 => some (-2 ^ 63,2 ^ 63)
  | .devUChar | .devEncoded => some (0,2 ^ 8)
  | .devUShort => some (0,2 ^ 16)
  | .devULong => some (0,2 ^ 32)
  | .devULong64 => some (0,2 ^ 64)
  | .devString | .devState | .devBoolean | .devFloat | .devDouble => none

def fits (t : AttrType) (n : Int) : Prop := ∃ b, bounds t = some b ∧ b.1 ≤ n ∧ n < b.2

def isKeyword (conf : String) : Prop :=
  sameNoCase conf "Not specified" ∨ conf = "" ∨ sameNoCase conf "NaN"

instance (conf : String) : Decidable (isKeyword conf) := inferInstanceAs (Decidable (_ ∨ _))

/-- The doubles of the program and what streams and casts do with them. The laws are those of
the integers a double holds exactly; a stream takes no keyword for a number. -/
structure Doubles where
  Dbl : Type
  eq : Dbl → Dbl → Bool
  lt : Dbl → Dbl → Bool
  le : Dbl → Dbl → Bool
  neg : Dbl → Dbl
  fabs : Dbl → Dbl
  ofInt : Int → Dbl
  /-- `str >> db`, and whether it succeeds and the stream is at its end. -/
  read : String → Dbl × Bool
  /-- `str << db` with `TANGO_FLOAT_PRECISION`. -/
  print : Dbl → String
  /-- The cast to the type in which an attribute of this type holds a bound. -/
  cast : AttrType → Dbl → Int
  toFloat : Dbl → Dbl
  /-- What is left in the member of the union when a double is written over it. -/
  seenAs : AttrType → Dbl → Int
  IsInt : Dbl → Int → Prop
  isInt_ofInt : ∀ n, n.natAbs ≤ 2 ^ 53 → IsInt (ofInt n) n
  isInt_neg : ∀ x n, IsInt x n → IsInt (neg x) (-n)
  eq_iff : ∀ x y m n, IsInt x m → IsInt y n → (eq x y = true ↔ m = n)
  lt_iff : ∀ x y m n, IsInt x m → IsInt y n → (lt x y = true ↔ m < n)
  read_numeral : ∀ text n, numeral text = some n → n.natAbs ≤ 2 ^ 53 →
    (read text).2 = true ∧ IsInt (read text).1 n
  read_keyword : ∀ text, isKeyword text → (read text).2 = false
  cast_isInt : ∀ t x n, IsInt x n → fits t n → cast t x = n

/-- A bound in memory, in the member of `Attr_CheckVal` that belongs to the data type. -/
inductive CheckVal (D : Doubles)
  | int (n : Int)
  | dbl (x : D.Dbl)

variable {D : Doubles}

def CheckVal.less : CheckVal D → CheckVal D → Bool
  | .int a,.int b => a < b
  | .dbl x,.dbl y => D.lt x y
  | _,_ => false

def CheckVal.atLeast : CheckVal D → CheckVal D → Bool
  | .int a,.int b => b ≤ a
  | .dbl x,.dbl y => D.le y x
  | _,_ => false

def CheckVal.differs : CheckVal D → CheckVal D → Bool
  | .int a,.int b => a ≠ b
  | .dbl x,.dbl y => !D.eq x y
  | _,_ => true

variable (D) in
/-- A double as a bound of the type: a negative number loses its sign for an unsigned type. -/
def castTo (t : AttrType) (x : D.Dbl) : CheckVal D :=
  match t with
  | .devShort | .devEnum | .devLong | .devLong64 => .int (D.cast t x)
  | .devUChar | .devUShort | .devULong | .devULong64 | .devEncoded =>
    .int (D.cast t (if D.lt x (D.ofInt 0) then D.neg x else x))
  | .devFloat => .dbl (D.toFloat x)
  | .devDouble | .devString | .devBoolean | .devState => .dbl x

variable (D) in
/-- The union after a double was written over it. -/
def overwritten (t : AttrType) (x : D.Dbl) : CheckVal D :=
  if (bounds t).isSome then .int (D.seenAs t x) else .dbl x

variable (D) in
/-- A number as `str << value` gives it back for the type; the text stays for a floating point
type and for the types without a case in the switch. -/
def typedText (t : AttrType) (text : String) (x : D.Dbl) : String :=
  match castTo D t x with
  | .int n => intString n
  | .dbl _ => text

/-- The types whose attributes have no bounds at all. -/
def noNumber (t : AttrType) : Prop := t = .devString ∨ t = .devBoolean ∨ t = .devState

instance (t : AttrType) : Decidable (noNumber t) := inferInstanceAs (Decidable (_ ∨ _))

/-- The result of `convert_prop_value`: text and value when the text is a number, else what is
left of the value. -/
inductive Converted (D : Doubles)
  | done (text : String) (value : CheckVal D)
  | errFormat (value : CheckVal D)

variable (D) in
def convertPropValue (t : AttrType) (text : String) : Converted D :=
  if (D.read text).2 then .done (typedText D t text (D.read text).1) (castTo D t (D.read text).1)
  else .errFormat (overwritten D t (D.read text).1)

theorem numeral_intString (n : Int) : numeral (intString n) = some n := by
  have hd : ∀ m : Nat, numeral.digits (Nat.toDigits 10 m) = some m := by
    intro m
    unfold numeral.digits
    rw [if_pos ⟨Nat.toDigits_ne_nil,List.all_eq_true.mpr (fun c hc => digit_of_mem hc)⟩,
      Nat.ofDigitChars_ten_toDigits]
  have hmag := hd n.natAbs
  unfold numeral intString
  rw [String.toList_ofList]
  by_cases h : n < 0
  · rw [intText,if_pos h]
    simp only [hmag]
    simp only [Option.map_some,Option.some.injEq,Int.ofNat_eq_natCast]
    omega
  · rw [intText,if_neg h]
    have hsign : ∀ c ∈ Nat.toDigits 10 n.natAbs, c ≠ '-' ∧ c ≠ '+' := fun c hc =>
      (digit_not_space (digit_of_mem hc)).2
    split
    next heq => exact absurd rfl (hsign _ (heq ▸ List.mem_cons_self)).1
    next heq => exact absurd rfl (hsign _ (heq ▸ List.mem_cons_self)).2
    next =>
      rw [hmag]
      simp only [Option.map_some,Option.some.injEq,Int.ofNat_eq_natCast]
      omega

/-- A numeral is its digits with a sign, and has no letters. -/
theorem numeral_chars {text : String} {n : Int} (h : numeral text = some n) :
    text.toList ≠ [] ∧ ∀ c ∈ text.toList, c.isDigit ∨ c = '-' ∨ c = '+' := by
  have hd : ∀ (ds : List Char) (m : Nat), numeral.digits ds = some m → ds ≠ [] ∧ ∀ c ∈ ds, c.isDigit := by
    intro ds m hm
    unfold numeral.digits at hm
    split at hm
    next hc => exact ⟨hc.1,List.all_eq_true.mp hc.2⟩
    next => cases hm
  unfold numeral at h
  split at h
  next ds heq =>
    obtain ⟨m,hm,-⟩ := Option.map_eq_some_iff.mp h
    rw [heq]
    exact ⟨List.cons_ne_nil _ _,List.forall_mem_cons.mpr
      ⟨.inr (.inl rfl),fun c hc => .inl ((hd ds m hm).2 c hc)⟩⟩
  next ds heq =>
    obtain ⟨m,hm,-⟩ := Option.map_eq_some_iff.mp h
    rw [heq]
    exact ⟨List.cons_ne_nil _ _,List.forall_mem_cons.mpr
      ⟨.inr (.inr rfl),fun c hc => .inl ((hd ds m hm).2 c hc)⟩⟩
  next =>
    obtain ⟨m,hm,-⟩ := Option.map_eq_some_iff.mp h
    exact ⟨(hd _ m hm).1,fun c hc => .inl ((hd _ m hm).2 c hc)⟩

theorem lower_numeral {text : String} {n : Int} (h : numeral text = some n) :
    lowerName text = text.toList := by
  have hc : ∀ c ∈ text.toList, c.toLower = c := by
    intro c hm
    have hlow : c.val.toNat < 65 := by
      rcases (numeral_chars h).2 c hm with hd | rfl | rfl
      · have : 48 ≤ c.val.toNat ∧ c.val.toNat ≤ 57 := by
          simpa [Char.isDigit,UInt32.le_iff_toNat_le] using hd
        omega
      · decide
      · decide
    unfold Char.toLower
    rw [dif_neg]
    rintro ⟨ha,-⟩
    have : 65 ≤ c.val.toNat := ha
    omega
  exact (List.map_congr_left hc).trans (List.map_id _)

theorem numeral_not_keyword {text : String} {n : Int} (h : numeral text = some n) : ¬ isKeyword text := by
  obtain ⟨hne,hc⟩ := numeral_chars h
  have hletter : ∀ word : String, 'n' ∈ lowerName word → ¬ sameNoCase text word := by
    intro word hw hs
    have hm : 'n' ∈ text.toList := by
      rw [← lower_numeral h]
      exact hs ▸ hw
    exact absurd (hc 'n' hm) (by decide)
  rintro (hs | rfl | hs)
  · exact hletter _ (by decide) hs
  · exact hne rfl
  · exact hletter _ (by decide) hs

/-- The doubles cut down to the integers, with the decimal numerals as their texts. -/
def wholeNumbers : Doubles where
  Dbl := Int
  eq x y := x = y
  lt x y := x < y
  le x y := x ≤ y
  neg x := -x
  fabs x := x.natAbs
  ofInt n := n
  read text := ((numeral text).getD 0,(numeral text).isSome)
  print x := intString x
  cast _ x := x
  toFloat x := x
  seenAs _ x := x
  IsInt x n := x = n
  isInt_ofInt _ _ := rfl
  isInt_neg _ _ h := congrArg Neg.neg h
  eq_iff := by
    rintro x y m n rfl rfl
    exact decide_eq_true_iff
  lt_iff := by
    rintro x y m n rfl rfl
    exact decide_eq_true_iff
  read_numeral text n h _ := by simp [h]
  read_keyword text h := by
    cases hn : numeral text with
    | none => rfl
    | some n => exact absurd h (numeral_not_keyword hn)
  cast_isInt _ _ _ h _ := h

end CppTango.Device.Conf
