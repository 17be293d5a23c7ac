import Mathlib.Data.List.Basic

namespace CppTango

structure TimeVal where
  tvSec : Int
  tvUsec : Int
  tvNsec : Int
deriving DecidableEq, Repr

inductive ErrSeverity
  | warn | err | panic
deriving DecidableEq, Repr

structure DevError where
  reason : String
  severity : ErrSeverity
  desc : String
  origin : String
deriving DecidableEq, Repr

abbrev DevErrorList := List DevError

inductive AttrQuality
  | valid | invalid | alarm | changing | warning
deriving DecidableEq, Repr

/-- Dimensions of a value; `dimY` is 0 for anything that is not an image. -/
structure AttributeDim where
  dimX : Nat
  dimY : Nat
deriving DecidableEq, Repr

def AttributeDim.zero : AttributeDim := ⟨0,0⟩

inductive DevState
  | on | off | close | open | insert | extract | moving | standby | fault | init | running
  | alarm | disable | unknown
deriving DecidableEq, Repr

structure DevEncoded where
  encodedFormat : String
  encodedData : List UInt8
deriving DecidableEq, Repr

/-- The element types of the CORBA sequences that carry attribute and command data. -/
inductive SeqKind
  | boolean | short | long | long64 | float | double | uchar | ushort | ulong | ulong64
  | string | state | encoded
deriving DecidableEq, Repr

/-- One sequence element. Floating point numbers are kept as their bit patterns. -/
@[reducible] def Elt : SeqKind → Type
  | .boolean => Bool
  | .short => Int16
  | .long => Int32
  | .long64 => Int64
  | .float => BitVec 32
  | .double => BitVec 64
  | .uchar => UInt8
  | .ushort => UInt16
  | .ulong => UInt32
  | .ulong64 => UInt64
  | .string => String
  | .state => DevState
  | .encoded => DevEncoded

instance : (k : SeqKind) → DecidableEq (Elt k)
  | .boolean => inferInstanceAs (DecidableEq Bool)
  | .short => inferInstanceAs (DecidableEq Int16)
  | .long => inferInstanceAs (DecidableEq Int32)
  | .long64 => inferInstanceAs (DecidableEq Int64)
  | .float => inferInstanceAs (DecidableEq (BitVec 32))
  | .double => inferInstanceAs (DecidableEq (BitVec 64))
  | .uchar => inferInstanceAs (DecidableEq UInt8)
  | .ushort => inferInstanceAs (DecidableEq UInt16)
  | .ulong => inferInstanceAs (DecidableEq UInt32)
  | .ulong64 => inferInstanceAs (DecidableEq UInt64)
  | .string => inferInstanceAs (DecidableEq String)
  | .state => inferInstanceAs (DecidableEq DevState)
  | .encoded => inferInstanceAs (DecidableEq DevEncoded)

/-- A typed sequence, as it travels inside an `Any`. -/
structure Seq where
  kind : SeqKind
  elts : List (Elt kind)
deriving DecidableEq

/-- The IDL union that carries an attribute value since IDL 4. The state read as an
attribute is stored alone, not as a sequence. -/
inductive AttrValUnion
  | seq (s : Seq)
  | devStateAtt (s : DevState)
  | unionNoData
deriving DecidableEq

inductive CmdArgType
  | devVoid | devBoolean | devShort | devLong | devFloat | devDouble | devUShort | devULong
  | devString | devVarCharArray | devVarShortArray | devVarLongArray | devVarFloatArray
  | devVarDoubleArray | devVarUShortArray | devVarULongArray | devVarStringArray
  | devVarLongStringArray | devVarDoubleStringArray | devState | constDevString
  | devVarBooleanArray | devUChar | devLong64 | devULong64 | devVarLong64Array
  | devVarULong64Array | devEncoded | devEnum | devPipeBlob | devVarStateArray
  | devVarEncodedArray | dataTypeUnknown
deriving DecidableEq, Repr

/-- The codes the source compares data types with; 27 is not used. -/
def CmdArgType.code : CmdArgType → Nat
  | .devVoid => 0
  | .devBoolean => 1
  | .devShort => 2
  | .devLong => 3
  | .devFloat => 4
  | .devDouble => 5
  | .devUShort => 6
  | .devULong => 7
  | .devString => 8
  | .devVarCharArray => 9
  | .devVarShortArray => 10
  | .devVarLongArray => 11
  | .devVarFloatArray => 12
  | .devVarDoubleArray => 13
  | .devVarUShortArray => 14
  | .devVarULongArray => 15
  | .devVarStringArray => 16
  | .devVarLongStringArray => 17
  | .devVarDoubleStringArray => 18
  | .devState => 19
  | .constDevString => 20
  | .devVarBooleanArray => 21
  | .devUChar => 22
  | .devLong64 => 23
  | .devULong64 => 24
  | .devVarLong64Array => 25
  | .devVarULong64Array => 26
  | .devEncoded => 28
  | .devEnum => 29
  | .devPipeBlob => 30
  | .devVarStateArray => 31
  | .devVarEncodedArray => 32
  | .dataTypeUnknown => 100

/-- The four-field comparison the polling buffers make before they reuse an error list. -/
def errorsDiffer : DevErrorList → DevErrorList → Bool
  | [],[] => false
  | a::as,b::bs =>
    if a.reason ≠ b.reason then true
    else if a.desc ≠ b.desc then true
    else if a.origin ≠ b.origin then true
    else if a.severity ≠ b.severity then true
    else errorsDiffer as bs
  | _,_ => true

theorem errors_differ_iff (as bs : DevErrorList) : errorsDiffer as bs = true ↔ as ≠ bs := by
  induction as generalizing bs with
  | nil => cases bs <;> simp [errorsDiffer]
  | cons a as ih =>
    cases bs with
    | nil => simp [errorsDiffer]
    | cons b bs =>
      obtain ⟨r,s,d,o⟩ := a
      obtain ⟨r',s',d',o'⟩ := b
      simp only [errorsDiffer,ne_eq,List.cons.injEq,DevError.mk.injEq]
      repeat' split
      all_goals simp_all

end CppTango
