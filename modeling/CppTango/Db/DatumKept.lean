import CppTango.Db.Datum
import Mathlib.Tactic.IntervalCases

namespace CppTango.Db.Datum

open CppTango.Lib

/-- A value with an insertion and an extraction operator of its type; a vector has an element. -/
inductive Inserted
  | boolean (datum : Bool)
  | uchar (datum : UInt8)
  | int (k : IntKind) (datum : k.elt)
  | string (datum : String)
  | ints (k : IntKind) (datum : List k.elt) (nonempty : datum ≠ [])
  | strings (datum : List String) (nonempty : datum ≠ [])

/-- Inserting the value and extracting its type succeeds and gives it back. -/
def Survives (d : DbDatum) : Inserted → Prop
  | .boolean datum => (d.insertBool datum).extractBool.2 = (some datum,.returned true)
  | .uchar datum => (d.insertUChar datum).extractUChar = (some datum,.returned true)
  | .int k datum => (d.insertInt k datum).extractInt k = (some datum,.returned true)
  | .string datum => (d.insertString datum).extractString = (some datum,.returned true)
  | .ints k datum _ => ∃ d', d.insertInts k datum = some d' ∧ d'.extractInts k = (datum,.returned true)
  | .strings datum _ => ∃ d', d.insertStrings datum = some d' ∧ d'.extractStrings = (datum,.returned true)

/-- The datum with one string only. -/
def DbDatum.alone (d : DbDatum) (s : String) : DbDatum := { d with valueString := [s] }

/-- A vector extraction gives what scalar extractions of the strings give. -/
structure AsScalars (k : IntKind) (d : DbDatum) : Prop where
  values : ¬(d.extractInts k).2.Failed → (d.extractInts k).2 = .returned true ∧
    ∀ (i : Nat) (s : String), d.valueString[i]? = some s → (d.extractInts k).1[i]? = ((d.alone s).extractInt k).1
  fails : (d.extractInts k).2.Failed ↔ ∃ s ∈ d.valueString, ((d.alone s).extractInt k).2.Failed

section Scalars
variable (d : DbDatum)

theorem whenWrong_failed (desc : String) : (d.whenWrong desc).Failed := by
  unfold DbDatum.whenWrong
  split
  · exact .inr ⟨_,rfl⟩
  · exact .inl rfl

theorem whenEmpty_failed (reason desc : String) : (d.whenEmpty reason desc).Failed := by
  unfold DbDatum.whenEmpty
  split
  · exact .inr ⟨_,rfl⟩
  · exact .inl rfl

theorem returned_not_failed : ¬(Ret.returned true).Failed := by
  rintro (h | ⟨e,h⟩) <;> cases h

theorem endless_not_failed : ¬Ret.endless.Failed := by
  rintro (h | ⟨e,h⟩) <;> cases h

/-- The number that a string alone is read as. -/
def numberOf (k : IntKind) (s : String) : Option k.elt := Streamed.get s.toList

theorem stream_get (k : IntKind) (s : String) :
    (StringStream.get k.elt ⟨s.toList,0,0,false,false⟩).1 = numberOf k s := rfl

theorem numberOf_put {k : IntKind} (a : k.elt) : numberOf k (String.ofList (Streamed.put a)) = some a := by
  rw [numberOf,String.toList_ofList,Streamed.get_put]

theorem extractInt_alone_some {k : IntKind} {s : String} {a : k.elt} (h : numberOf k s = some a) :
    (d.alone s).extractInt k = (some a,.returned true) := by
  simp only [DbDatum.extractInt,DbDatum.alone,stream_get,h]

theorem extractInt_alone_none {k : IntKind} {s : String} (h : numberOf k s = none) :
    ((d.alone s).extractInt k).2.Failed := by
  simp only [DbDatum.extractInt,DbDatum.alone,stream_get,h]
  exact whenWrong_failed _ _

theorem bool_survives (datum : Bool) : Survives d (.boolean datum) := by
  have hread : DbDatum.readBool ((DbDatum.boolText datum).map Char.toLower) = some datum := by cases datum <;> decide
  simp only [Survives,DbDatum.insertBool,DbDatum.one,DbDatum.extractBool,String.toList_ofList,hread]

theorem int_survives (k : IntKind) (datum : k.elt) : Survives d (.int k datum) := by
  simp only [Survives,DbDatum.insertInt,DbDatum.one,DbDatum.extractInt,stream_get,numberOf_put]

theorem string_survives (datum : String) : Survives d (.string datum) := rfl

/-- The character that stands first in a number is a digit of it. -/
theorem readUChar_intText (n : Nat) : ∃ c, c.isDigit = true ∧
    (intText n).head? = some c ∧ DbDatum.readUChar (intText n) = some (UInt8.ofNat c.toNat) := by
  have htext : intText n = Nat.toDigits 10 n := by
    unfold intText
    rw [if_neg (by omega),Int.natAbs_natCast]
  obtain ⟨c,ds,hc⟩ := List.exists_cons_of_ne_nil (Nat.toDigits_ne_nil (n := n) (b := 10))
  have hdigit : c.isDigit = true := digit_of_mem (n := n) (by rw [hc]; exact List.mem_cons_self)
  have hspace := (digit_not_space hdigit).1
  refine ⟨c,hdigit,?_,?_⟩
  · rw [htext,hc]
    rfl
  · rw [htext,hc]
    simp only [DbDatum.readUChar,List.dropWhile_cons,hspace,Bool.false_eq_true,if_false,List.head?_cons,Option.map_some]

/-- Only the code of the digit that stands first in its own number is read as itself. -/
theorem readUChar_iff (datum : UInt8) : DbDatum.readUChar (intText datum.toNat) = some datum ↔ datum = 53 := by
  constructor
  · intro h
    obtain ⟨c,hdigit,-,hread⟩ := readUChar_intText datum.toNat
    have hcode : 48 ≤ c.toNat ∧ c.toNat ≤ 57 := by
      simpa [Char.isDigit,UInt32.le_iff_toNat_le] using hdigit
    have hval : UInt8.ofNat c.toNat = datum := Option.some.inj (hread.symm.trans h)
    obtain ⟨hlow,hhigh⟩ := hcode
    generalize c.toNat = n at hval hlow hhigh
    subst hval
    interval_cases n <;> revert h <;> decide
  · rintro rfl
    decide

theorem uchar_survives_iff (datum : UInt8) : Survives d (.uchar datum) ↔ datum = 53 := by
  rw [← readUChar_iff]
  simp only [Survives,DbDatum.insertUChar,DbDatum.one,DbDatum.extractUChar,String.toList_ofList]
  cases h : DbDatum.readUChar (intText datum.toNat) with
  | none => simp
  | some a => simp

end Scalars

section Vectors
variable {k : IntKind} (d : DbDatum)

theorem get_again (s : String) {iostream : StringStream} (hf : iostream.fail = false) :
    ((StringStream.again s.toList iostream).get k.elt).1 = numberOf k s ∧
      ((StringStream.again s.toList iostream).get k.elt).2.fail = (numberOf k s).isNone :=
  StringStream.get_again s.toList hf

/-- Where all texts are numbers the loop gives them. -/
theorem extractLoop_all {size i : Nat} {ss : List String} {datum : List k.elt} {iostream : StringStream}
    (h : ss.map (numberOf k) = datum.map some) (hf : iostream.fail = false) :
    DbDatum.extractLoop k d size i ss iostream = (datum,if size < 2 ^ 32 then .returned true else .endless) := by
  induction ss generalizing i datum iostream with
  | nil =>
    obtain rfl : datum = [] := by simpa using h
    rfl
  | cons s ss ih =>
    cases datum with
    | nil => cases h
    | cons a datum =>
      obtain ⟨hs,hrest⟩ := List.cons.inj h
      obtain ⟨hget,hfail⟩ := get_again s hf
      rw [hs] at hget hfail
      have hih := ih (i := i + 1) hrest hfail
      unfold DbDatum.extractLoop
      split
      next heq => simp [heq] at hget
      next a' stream heq =>
        rw [heq] at hget hih
        obtain rfl : a' = a := Option.some.inj hget
        dsimp only at hih ⊢
        rw [hih]

/-- At the first text that is no number the loop fails, with the numbers before it. -/
theorem extractLoop_fails {size i : Nat} {front back : List String} {s : String} {datum : List k.elt}
    {iostream : StringStream} (h : front.map (numberOf k) = datum.map some)
    (hs : numberOf k s = none) (hf : iostream.fail = false) :
    (DbDatum.extractLoop k d size i (front ++ s :: back) iostream).1 = datum ∧
      (DbDatum.extractLoop k d size i (front ++ s :: back) iostream).2.Failed := by
  induction front generalizing i datum iostream with
  | nil =>
    obtain rfl : datum = [] := by simpa using h
    have hget := (get_again (k := k) s hf).1
    rw [hs] at hget
    rw [List.nil_append]
    unfold DbDatum.extractLoop
    split
    next heq => exact ⟨rfl,whenWrong_failed _ _⟩
    next a' stream heq => simp [heq] at hget
  | cons s' front ih =>
    cases datum with
    | nil => cases h
    | cons a datum =>
      obtain ⟨hs',hrest⟩ := List.cons.inj h
      obtain ⟨hget,hfail⟩ := get_again s' hf
      rw [hs'] at hget hfail
      have hih := ih (i := i + 1) hrest hfail
      rw [List.cons_append]
      unfold DbDatum.extractLoop
      split
      next heq => simp [heq] at hget
      next a' stream heq =>
        rw [heq] at hget hih
        obtain rfl : a' = a := Option.some.inj hget
        exact ⟨congrArg _ hih.1,hih.2⟩

/-- Texts are all numbers, or one of them is the first that is none. -/
theorem numbers_or_first (k : IntKind) (ss : List String) :
    (∃ datum : List k.elt, ss.map (numberOf k) = datum.map some) ∨
      ∃ (front back : List String) (s : String) (datum : List k.elt), ss = front ++ s :: back ∧
        front.map (numberOf k) = datum.map some ∧ numberOf k s = none := by
  induction ss with
  | nil => exact .inl ⟨[],rfl⟩
  | cons s ss ih =>
    cases hs : numberOf k s with
    | none => exact .inr ⟨[],ss,s,[],rfl,rfl,hs⟩
    | some a =>
      rcases ih with ⟨datum,h⟩ | ⟨front,back,t,datum,rfl,h,ht⟩
      · exact .inl ⟨a :: datum,by rw [List.map_cons,hs,h,List.map_cons]⟩
      · exact .inr ⟨s :: front,back,t,a :: datum,rfl,by rw [List.map_cons,hs,h,List.map_cons],ht⟩

theorem extractInts_eq (h : d.valueString ≠ []) : d.extractInts k =
    DbDatum.extractLoop k d d.valueString.length 0 (d.valueString.take (2 ^ 32)) StringStream.empty := by
  obtain ⟨s,rest,hs⟩ := List.exists_cons_of_ne_nil h
  unfold DbDatum.extractInts
  rw [hs]
  rfl

theorem ints_survive_iff (datum : List k.elt) (hn : datum ≠ []) :
    Survives d (.ints k datum hn) ↔ datum.length < 2 ^ 32 := by
  change (∃ d',d.many (datum.map Streamed.put) k.arrayType = some d' ∧ _) ↔ _
  unfold DbDatum.many
  rw [List.length_map]
  split
  next hlen =>
    refine iff_of_true ⟨_,rfl,?_⟩ hlen
    rw [extractInts_eq _ (by simpa using hn)]
    dsimp only
    have htake : ∀ xs : List String, xs.length = datum.length → xs.take (2 ^ 32) = xs :=
      fun xs hxs => List.take_of_length_le (by omega)
    rw [htake _ (by simp)]
    have hmap : (List.map String.ofList (datum.map Streamed.put)).map (numberOf k) = datum.map some := by
      rw [List.map_map,List.map_map]
      exact List.map_congr_left (fun a _ => numberOf_put a)
    rw [extractLoop_all _ hmap rfl]
    simpa using hlen
  next hlen =>
    refine iff_of_false ?_ hlen
    rintro ⟨d',h,-⟩
    cases h

theorem strings_survive_iff (datum : List String) (hn : datum ≠ []) :
    Survives d (.strings datum hn) ↔ datum.length < 2 ^ 32 := by
  change (∃ d',d.insertStrings datum = some d' ∧ _) ↔ _
  unfold DbDatum.insertStrings
  split
  next hlen =>
    refine iff_of_true ⟨_,rfl,?_⟩ hlen
    obtain ⟨s,rest,rfl⟩ := List.exists_cons_of_ne_nil hn
    exact congrArg (Prod.mk (s :: rest)) (if_pos hlen)
  next hlen =>
    refine iff_of_false ?_ hlen
    rintro ⟨d',h,-⟩
    cases h

/-- A vector of strings is extracted as its single strings are, where there is one and the loop comes to an end. -/
theorem asScalars_iff (k : IntKind) (d : DbDatum) : AsScalars k d ↔
    d.valueString ≠ [] ∧ (d.valueString.length < 2 ^ 32 ∨
      ∃ s ∈ d.valueString.take (2 ^ 32), numberOf k s = none) := by
  by_cases hne : d.valueString = []
  · refine iff_of_false ?_ (fun h => h.1 hne)
    intro h
    have hempty : (d.extractInts k).2.Failed := by
      unfold DbDatum.extractInts
      rw [hne]
      exact whenEmpty_failed _ _ _
    obtain ⟨s,hs,-⟩ := h.fails.mp hempty
    rw [hne] at hs
    cases hs
  rcases numbers_or_first k (d.valueString.take (2 ^ 32)) with ⟨datum,h⟩ | ⟨front,back,s,datum,htake,h,hs⟩
  · -- no string that the loop comes to is wrong: it gives all of them, unless it never ends
    have hloop := extractInts_eq (k := k) d hne
    rw [extractLoop_all d h rfl] at hloop
    have hgood : ∀ s ∈ d.valueString.take (2 ^ 32), ∃ a, numberOf k s = some a := by
      intro s hs
      have hmem : numberOf k s ∈ datum.map some := h ▸ List.mem_map_of_mem hs
      obtain ⟨a,-,ha⟩ := List.mem_map.mp hmem
      exact ⟨a,ha.symm⟩
    by_cases hlen : d.valueString.length < 2 ^ 32
    · refine iff_of_true ⟨?_,?_⟩ ⟨hne,.inl hlen⟩
      · intro _
        rw [hloop]
        refine ⟨if_pos hlen,?_⟩
        intro i s hi
        rw [List.take_of_length_le (Nat.le_of_lt hlen)] at h
        have hget := congrArg (·[i]?) h
        simp only [List.getElem?_map,hi,Option.map_some] at hget
        obtain ⟨a,ha,haa⟩ := Option.map_eq_some_iff.mp hget.symm
        rw [extractInt_alone_some d haa.symm,ha]
      · rw [List.take_of_length_le (Nat.le_of_lt hlen)] at hgood
        refine iff_of_false ?_ ?_
        · rw [hloop,if_pos hlen]
          exact returned_not_failed
        · rintro ⟨s,hs,hf⟩
          obtain ⟨a,ha⟩ := hgood s hs
          rw [extractInt_alone_some d ha] at hf
          exact returned_not_failed hf
    · refine iff_of_false ?_ ?_
      · intro has
        have hret := (has.values (by rw [hloop,if_neg hlen]; exact endless_not_failed)).1
        rw [hloop,if_neg hlen] at hret
        cases hret
      · rintro ⟨-,hlt | ⟨s,hs,hnone⟩⟩
        · exact hlen hlt
        · obtain ⟨a,ha⟩ := hgood s hs
          exact absurd (hnone.symm.trans ha) (by simp)
  · have hmem : s ∈ d.valueString.take (2 ^ 32) := by
      rw [htake]
      exact List.mem_append_right _ List.mem_cons_self
    have hfailed : (d.extractInts k).2.Failed := by
      rw [extractInts_eq d hne,htake]
      exact (extractLoop_fails d h hs rfl).2
    refine iff_of_true ⟨fun hn => absurd hfailed hn,?_⟩ ⟨hne,.inr ⟨s,hmem,hs⟩⟩
    exact iff_of_true hfailed ⟨s,List.mem_of_mem_take hmem,extractInt_alone_none d hs⟩

end Vectors

/-- What comes back as it was inserted: no single `unsigned char` but 53, and no vector that its loop cannot count. -/
def Inserted.Kept : Inserted → Prop
  | .uchar datum => datum = 53
  | .ints _ datum _ => datum.length < 2 ^ 32
  | .strings datum _ => datum.length < 2 ^ 32
  | _ => True

theorem datum_values_kept_iff (d : DbDatum) : (∀ v : Inserted, Survives d v ↔ v.Kept) ∧
    ∀ k : IntKind, AsScalars k d ↔ d.valueString ≠ [] ∧ (d.valueString.length < 2 ^ 32 ∨
      ∃ s ∈ d.valueString.take (2 ^ 32), numberOf k s = none) := by
  refine ⟨?_,fun k => asScalars_iff k d⟩
  intro v
  cases v with
  | boolean datum => exact iff_of_true (bool_survives d datum) trivial
  | uchar datum => exact uchar_survives_iff d datum
  | int k datum => exact iff_of_true (int_survives d k datum) trivial
  | string datum => exact iff_of_true (string_survives d datum) trivial
  | ints k datum hn => exact ints_survive_iff d datum hn
  | strings datum hn => exact strings_survive_iff d datum hn

def polledPeriod : DbDatum := ⟨⟨"period",[]⟩,.dataTypeUnknown,0,true,true⟩

/-- Sixty-five is inserted as a number and extracted as the character 6. -/
theorem uchar_extracted_as_character : ¬Survives polledPeriod (.uchar 65) := by
  intro h
  have hread : (polledPeriod.insertUChar 65).extractUChar = (some 54,.returned true) := by decide
  exact absurd (hread.symm.trans h) (by decide)

end CppTango.Db.Datum
