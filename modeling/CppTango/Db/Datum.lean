import CppTango.Data
import CppTango.Db.Client
import CppTango.Lib.Stream

namespace CppTango.Db.Datum

open CppTango.Lib

/-- A named list of strings with the type that was inserted and the two exception flags. -/
structure DbDatum extends Db.DbDatum where
  valueType : CmdArgType
  valueSize : Nat
  isemptyFlag : Bool
  wrongtypeFlag : Bool
deriving DecidableEq, Repr

structure DataError where
  reason : String
  desc : String
deriving DecidableEq, Repr

/-- How an extraction ends. -/
inductive Ret
  | returned (ret : Bool)
  | threw (e : DataError)
  | endless
deriving DecidableEq, Repr

def Ret.Failed (r : Ret) : Prop := r = .returned false ∨ ∃ e, r = .threw e

/-- The integer types with a scalar and a vector form. -/
inductive IntKind
  | short | ushort | long | ulong | long64 | ulong64
deriving DecidableEq, Repr

namespace IntKind

@[reducible] def elt : IntKind → Type
  | .short => Int16
  | .ushort => UInt16
  | .long => Int32
  | .ulong => UInt32
  | .long64 => Int64
  | .ulong64 => UInt64

instance : (k : IntKind) → Streamed k.elt
  | .short => inferInstanceAs (Streamed Int16)
  | .ushort => inferInstanceAs (Streamed UInt16)
  | .long => inferInstanceAs (Streamed Int32)
  | .ulong => inferInstanceAs (Streamed UInt32)
  | .long64 => inferInstanceAs (Streamed Int64)
  | .ulong64 => inferInstanceAs (Streamed UInt64)

def scalarType : IntKind → CmdArgType
  | .short => .devShort
  | .ushort => .devUShort
  | .long => .devLong
  | .ulong => .devULong
  | .long64 => .devLong64
  | .ulong64 => .devULong64

def arrayType : IntKind → CmdArgType
  | .short => .devVarShortArray
  | .ushort => .devVarUShortArray
  | .long => .devVarLongArray
  | .ulong => .devVarULongArray
  | .long64 => .devVarLong64Array
  | .ulong64 => .devVarULong64Array

/-- The word for the type in the texts about empty data and about vectors. -/
def word : IntKind → String
  | .short => "short"
  | .ushort => "unsigned short"
  | .long => "long"
  | .ulong | .long64 | .ulong64 => "unsigned long"

def isNot : IntKind → String
  | .short => "is not a short"
  | .ushort => "is not an unsigned short"
  | .long => "is not a DevLong (long 32 bits)"
  | .ulong => "is not a DevULong (unsigned long 32 bits)"
  | .long64 => "is not a DevLong64 (long 64 bits)"
  | .ulong64 => "is not a DevULong64 (unsigned long 64 bits)"

def emptyReason : IntKind → String
  | .long => "API_EmptyDbDbDatum"
  | _ => "API_EmptyDbDatum"

def emptyVerb : IntKind → String
  | .short => "Cannot"
  | _ => "cannot"

end IntKind

namespace DbDatum

/-- An extraction from a datum without strings. -/
def whenEmpty (d : DbDatum) (reason desc : String) : Ret :=
  if d.isemptyFlag then .threw ⟨reason,desc⟩ else .returned false

/-- An extraction of a string that is no such value. -/
def whenWrong (d : DbDatum) (desc : String) : Ret :=
  if d.wrongtypeFlag then .threw ⟨"API_IncompatibleArgumentType",desc⟩ else .returned false

def isEmpty (d : DbDatum) : Ret :=
  if d.valueString = [] then
    if d.isemptyFlag then .threw ⟨"API_EmptyDbDatum","The DbDatum object is empty"⟩ else .returned true
  else .returned false

/-- `value_string.resize(1); value_string[0] = text`. -/
def one (d : DbDatum) (text : List Char) (type : CmdArgType) : DbDatum :=
  { d with valueString := [String.ofList text], valueType := type, valueSize := 1 }

/-- The loop of an insertion counts with an `unsigned int`, which starts again at 0 before it reaches 2^32. -/
def many (d : DbDatum) (texts : List (List Char)) (type : CmdArgType) : Option DbDatum :=
  if texts.length < 2 ^ 32 then
    some { d with valueString := texts.map String.ofList, valueType := type, valueSize := texts.length }
  else none

section Scalars

def boolText (datum : Bool) : List Char := if datum then "true".toList else "false".toList

/-- `istream >> std::boolalpha >> datum`. -/
def readBool (text : List Char) : Option Bool :=
  let input := text.dropWhile isSpace
  if "true".toList.isPrefixOf input then some true
  else if "false".toList.isPrefixOf input then some false
  else none

def insertBool (datum : Bool) (d : DbDatum) : DbDatum := d.one (boolText datum) .devBoolean

/-- The string of the datum is made lower-case in place. -/
def extractBool (d : DbDatum) : DbDatum × Option Bool × Ret :=
  match d.valueString with
  | [] => (d,none,d.whenEmpty "API_EmptyDbDatum" "Cannot extract short, no data in DbDatum object ")
  | s :: rest =>
    let text := s.toList.map Char.toLower
    let d := { d with valueString := String.ofList text :: rest }
    match readBool text with
    | none => (d,none,d.whenWrong "Cannot extract, data in DbDatum is not a short")
    | some datum => (d,some datum,.returned true)

/-- `ostream << (short) datum`. -/
def insertUChar (datum : UInt8) (d : DbDatum) : DbDatum := d.one (intText datum.toNat) .devUChar

/-- `istream >> datum` for an `unsigned char`: one character, not a number. -/
def readUChar (text : List Char) : Option UInt8 := (text.dropWhile isSpace).head?.map (fun c => UInt8.ofNat c.toNat)

def extractUChar (d : DbDatum) : Option UInt8 × Ret :=
  match d.valueString with
  | [] => (none,d.whenEmpty "API_EmptyDbDatum" "cannot extract unsigned short, no data in DbDatum object ")
  | s :: _ =>
    match readUChar s.toList with
    | none => (none,d.whenWrong "Cannot extract, data in DbDatum is not an unsigned short")
    | some datum => (some datum,.returned true)

def insertInt (k : IntKind) (datum : k.elt) (d : DbDatum) : DbDatum := d.one (Streamed.put datum) k.scalarType

def extractInt (k : IntKind) (d : DbDatum) : Option k.elt × Ret :=
  match d.valueString with
  | [] => (none,d.whenEmpty k.emptyReason
      (k.emptyVerb ++ " extract " ++ k.word ++ ", no data in DbDatum object "))
  | s :: _ =>
    match (StringStream.get k.elt ⟨s.toList,0,0,false,false⟩).1 with
    | none => (none,d.whenWrong ("Cannot extract, data in DbDatum " ++ k.isNot))
    | some datum => (some datum,.returned true)

def insertString (datum : String) (d : DbDatum) : DbDatum :=
  { d with valueString := [datum], valueType := .devString, valueSize := 1 }

def extractString (d : DbDatum) : Option String × Ret :=
  match d.valueString with
  | [] => (none,d.whenEmpty "API_EmptyDbDatum" "cannot extract string, no data in DbDatum object ")
  | s :: _ => (some s,.returned true)

end Scalars

section Vectors

def insertInts (k : IntKind) (datum : List k.elt) (d : DbDatum) : Option DbDatum :=
  d.many (datum.map Streamed.put) k.arrayType

/-- The loop over the strings with its one stream; `size` is the number of all strings. -/
def extractLoop (k : IntKind) (d : DbDatum) (size : Nat) :
    Nat → List String → StringStream → List k.elt × Ret
  | _,[],_ => ([],if size < 2 ^ 32 then .returned true else .endless)
  | i,s :: rest,iostream =>
    match (StringStream.again s.toList iostream).get k.elt with
    | (none,_) => ([],d.whenWrong ("Cannot extract " ++ k.word ++ " vector, elt number " ++
        String.ofList (intText ((i + 1 : Nat) : Int)) ++ " " ++ k.isNot))
    | (some datum,iostream) =>
      let r := extractLoop k d size (i + 1) rest iostream
      (datum :: r.1,r.2)

def extractInts (k : IntKind) (d : DbDatum) : List k.elt × Ret :=
  match d.valueString with
  | [] => ([],d.whenEmpty "API_EmptyDbDatum"
      ("cannot extract " ++ k.word ++ " vector, no data in DbDatum object "))
  | s :: rest => extractLoop k d (rest.length + 1) 0 ((s :: rest).take (2 ^ 32)) StringStream.empty

def insertStrings (datum : List String) (d : DbDatum) : Option DbDatum :=
  if datum.length < 2 ^ 32 then
    some { d with valueString := datum, valueType := .devVarStringArray, valueSize := datum.length }
  else none

def extractStrings (d : DbDatum) : List String × Ret :=
  match d.valueString with
  | [] => ([],d.whenEmpty "API_EmptyDbDatum" "cannot extract string vector, no data in DbDatum object ")
  | s :: rest => (s :: rest,if rest.length + 1 < 2 ^ 32 then .returned true else .endless)

end Vectors

end DbDatum

end CppTango.Db.Datum
