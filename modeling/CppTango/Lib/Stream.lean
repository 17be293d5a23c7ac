import CppTango.Lib.Numbers
import Mathlib.Data.List.Basic

namespace CppTango.Lib

/-- What `std::ends` writes. -/
def nul : Char := Char.ofNat 0

/-- A type that streams write and read: what was written is read back, and a NUL ends what is read. -/
class Streamed (α : Type) where
  put : α → List Char
  get : List Char → Option α
  get_put : ∀ a, get (put a) = some a
  get_ends : ∀ s rest, get (s ++ nul :: rest) = get s

/-- The text behind the number that a stream reads. -/
def behindNumber (s : List Char) : List Char :=
  match s.dropWhile isSpace with
  | '-'::ds => ds.dropWhile Char.isDigit
  | '+'::ds => ds.dropWhile Char.isDigit
  | ds => ds.dropWhile Char.isDigit

section Ends
variable (s rest : List Char)

theorem takeWhile_ends {p : Char → Bool} (h : p nul = false) : (s ++ nul :: rest).takeWhile p = s.takeWhile p := by
  induction s with
  | nil => simp [h]
  | cons c s ih => simp only [List.cons_append,List.takeWhile_cons,ih]

theorem dropWhile_ends {p : Char → Bool} (h : p nul = false) :
    (s ++ nul :: rest).dropWhile p = s.dropWhile p ++ nul :: rest := by
  induction s with
  | nil => simp [h]
  | cons c s ih =>
    simp only [List.cons_append,List.dropWhile_cons,ih]
    cases p c <;> rfl

theorem readNat_ends : readNat (s ++ nul :: rest) = readNat s := by
  unfold readNat
  rw [takeWhile_ends s rest (by decide)]

theorem readSign_ends : readSign (s ++ nul :: rest) = readSign s := by
  unfold readSign
  rw [dropWhile_ends s rest (by decide)]
  cases s.dropWhile isSpace with
  | nil =>
    have hdigit : nul.isDigit = false := by decide
    simp [nul,readNat] at hdigit ⊢
  | cons c ds =>
    rw [List.cons_append]
    split
    next heq =>
      cases heq
      exact congrArg _ (readNat_ends ds rest)
    next heq =>
      cases heq
      exact congrArg _ (readNat_ends ds rest)
    next hm hp =>
      have hm' : ∀ es, c :: ds ≠ '-' :: es := fun es h => by cases h; exact hm _ rfl
      have hp' : ∀ es, c :: ds ≠ '+' :: es := fun es h => by cases h; exact hp _ rfl
      split
      next heq => exact absurd heq (hm' _)
      next heq => exact absurd heq (hp' _)
      next => exact congrArg _ (readNat_ends (c :: ds) rest)

theorem readSigned_ends (w : Nat) : readSigned w (s ++ nul :: rest) = readSigned w s := by
  unfold readSigned
  rw [readSign_ends]

theorem readUnsigned_ends (w : Nat) : readUnsigned w (s ++ nul :: rest) = readUnsigned w s := by
  unfold readUnsigned
  rw [readSign_ends]

end Ends

/-- A signed integer type by its embedding into the integers. -/
@[reducible] def Streamed.ofSigned {α : Type} (w : Nat) (toInt : α → Int) (ofInt : Int → α)
    (back : ∀ a, ofInt (toInt a) = a) (fits : ∀ a, -2 ^ (w - 1) ≤ toInt a ∧ toInt a < 2 ^ (w - 1)) : Streamed α where
  put a := intText (toInt a)
  get s := (readSigned w s).map ofInt
  get_put a := by rw [readSigned_intText w _ (fits a),Option.map_some,back]
  get_ends s rest := by rw [readSigned_ends]

/-- An unsigned integer type by its embedding into the natural numbers. -/
@[reducible] def Streamed.ofUnsigned {α : Type} (w : Nat) (toNat : α → Nat) (ofNat : Nat → α) (hw : w ≤ 64)
    (back : ∀ a, ofNat (toNat a) = a) (fits : ∀ a, toNat a < 2 ^ w) : Streamed α where
  put a := intText (toNat a)
  get s := (readUnsigned w s).map ofNat
  get_put a := by rw [readUnsigned_intText w _ hw (fits a),Option.map_some,back]
  get_ends s rest := by rw [readUnsigned_ends]

instance : Streamed Int16 :=
  .ofSigned 16 Int16.toInt Int16.ofInt Int16.ofInt_toInt (fun a => ⟨a.le_toInt,a.toInt_lt⟩)

instance : Streamed Int32 :=
  .ofSigned 32 Int32.toInt Int32.ofInt Int32.ofInt_toInt (fun a => ⟨a.le_toInt,a.toInt_lt⟩)

instance : Streamed Int64 :=
  .ofSigned 64 Int64.toInt Int64.ofInt Int64.ofInt_toInt (fun a => ⟨a.le_toInt,a.toInt_lt⟩)

instance : Streamed UInt16 :=
  .ofUnsigned 16 UInt16.toNat UInt16.ofNat (by decide) (fun _ => UInt16.ofNat_toNat) UInt16.toNat_lt

instance : Streamed UInt32 :=
  .ofUnsigned 32 UInt32.toNat UInt32.ofNat (by decide) (fun _ => UInt32.ofNat_toNat) UInt32.toNat_lt

instance : Streamed UInt64 :=
  .ofUnsigned 64 UInt64.toNat UInt64.ofNat (by decide) (fun _ => UInt64.ofNat_toNat) UInt64.toNat_lt

/-- A `std::stringstream`. -/
structure StringStream where
  buf : List Char
  putPos : Nat
  getPos : Nat
  eof : Bool
  fail : Bool
deriving DecidableEq, Repr

namespace StringStream

def empty : StringStream := ⟨[],0,0,false,false⟩

def good (s : StringStream) : Bool := !s.eof && !s.fail

def seekp (pos : Nat) (s : StringStream) : StringStream := if s.fail then s else { s with putPos := pos }

def seekg (pos : Nat) (s : StringStream) : StringStream :=
  if s.fail then { s with eof := false } else { s with getPos := pos, eof := false }

def clear (s : StringStream) : StringStream := { s with eof := false, fail := false }

/-- What stands behind the text that is put stays in the buffer. -/
def put (text : List Char) (s : StringStream) : StringStream :=
  if s.good then
    { s with
      buf := s.buf.take s.putPos ++ text ++ s.buf.drop (s.putPos + text.length)
      putPos := s.putPos + text.length }
  else { s with fail := true }

def get (α : Type) [Streamed α] (s : StringStream) : Option α × StringStream :=
  if s.good then
    let input := s.buf.drop s.getPos
    let left := behindNumber input
    let a : Option α := Streamed.get input
    (a,{ s with getPos := s.buf.length - left.length, eof := left.isEmpty, fail := a.isNone })
  else (none,{ s with fail := true })

section Reuse
variable {α : Type} [Streamed α] {s : StringStream}

/-- The stream as it is used for one more element: written from its start, and read from there. -/
def again (text : List Char) (s : StringStream) : StringStream :=
  ((((s.seekp 0).seekg 0).clear).put text).put [nul]

theorem again_eq (text : List Char) (h : s.fail = false) :
    again text s = ⟨text ++ nul :: s.buf.drop (text.length + 1),text.length + 1,0,false,false⟩ := by
  have hstart : ((s.seekp 0).seekg 0).clear = ⟨s.buf,0,0,false,false⟩ := by
    simp [seekp,seekg,clear,h]
  unfold again
  rw [hstart]
  simp [put,good,List.drop_append]

/-- The reused stream reads what a stream of the text alone reads, whatever the text before it was. -/
theorem get_again (text : List Char) (h : s.fail = false) :
    ((again text s).get α).1 = Streamed.get text ∧
      ((again text s).get α).2.fail = (Streamed.get text : Option α).isNone := by
  have hget := Streamed.get_ends (α := α) text (s.buf.drop (text.length + 1))
  rw [again_eq text h]
  simp only [get,good,Bool.not_false,Bool.and_self,if_true,List.drop_zero,hget,and_self]

end Reuse

end StringStream

end CppTango.Lib
