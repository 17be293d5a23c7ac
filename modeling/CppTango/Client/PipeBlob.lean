import CppTango.Data
import CppTango.Device.MultiAttribute

namespace CppTango.Client.Pipe

/-- One element of a blob: a typed value, or the elements of an inner blob. The name of the inner blob marks a value
as a scalar or an array. -/
structure DevPipeDataElt where
  name : String
  value : AttrValUnion
  innerBlob : List DevPipeDataElt
  innerBlobName : String

abbrev Elts := List DevPipeDataElt

def scalarPipe : String := "Scalar"
def arrayPipe : String := "Array"

/-- What a CORBA string keeps of a C++ string. -/
def cString (s : String) : String := String.ofList (s.toList.takeWhile (fun c => c.toNat != 0))

/-- The sequence of one type in the union. -/
def seqValue (k : SeqKind) : AttrValUnion → Option (List (Elt k))
  | .seq ⟨k',xs⟩ => if h : k' = k then some (h ▸ xs) else none
  | _ => none

section Inserting

/-- The values that have an insertion operator, by their C++ type: a scalar (`std::string` for strings), a `DevString`,
a vector (of `std::string` for strings), a vector of `DevString`, a sequence and a pointer to one. -/
inductive Datum
  | scalar (k : SeqKind) (x : Elt k)
  | devString (x : String)
  | vector (k : SeqKind) (xs : List (Elt k))
  | devStringVector (xs : List String)
  | seqRef (k : SeqKind) (xs : List (Elt k))
  | seqPtr (k : SeqKind) (xs : List (Elt k))

/-- C++ strings are copied from their `c_str()`. -/
def copied : (k : SeqKind) → Elt k → Elt k
  | .string,x => cString x
  | .boolean,x | .short,x | .long,x | .long64,x | .float,x | .double,x | .uchar,x | .ushort,x | .ulong,x
  | .ulong64,x | .state,x | .encoded,x => x

def Datum.value : Datum → AttrValUnion
  | .scalar k x => .seq ⟨k,[copied k x]⟩
  | .devString x => .seq ⟨.string,[x]⟩
  | .vector k xs => .seq ⟨k,xs.map (copied k)⟩
  | .devStringVector xs => .seq ⟨.string,xs⟩
  | .seqRef k xs | .seqPtr k xs => .seq ⟨k,xs⟩

/-- The mark that the insertion leaves; the hand-written ones for vectors of `DevBoolean` and `std::string` leave
none. -/
def Datum.mark : Datum → Option String
  | .scalar _ _ | .devString _ => some scalarPipe
  | .vector .boolean _ | .vector .string _ => none
  | .vector _ _ | .devStringVector _ | .seqRef _ _ | .seqPtr _ _ => some arrayPipe

def DevPipeDataElt.store (x : Datum) (e : DevPipeDataElt) : DevPipeDataElt :=
  { e with value := x.value, innerBlobName := x.mark.getD e.innerBlobName }

def DevPipeDataElt.storeBlob (name : String) (es : Elts) (e : DevPipeDataElt) : DevPipeDataElt :=
  { e with innerBlob := es, innerBlobName := cString name }

end Inserting

inductive Flag
  | isempty | wrongtype | notenoughde | blobdenamenotset | mixing
deriving DecidableEq, Repr

section Extracting

/-- The types that have an extraction operator. -/
inductive ExtractType
  | scalar (k : SeqKind)
  | devString
  | vector (k : SeqKind) (h : k ≠ .encoded)
  | seqPtr (k : SeqKind)
  | blob
deriving DecidableEq

inductive Extracted
  | scalar (k : SeqKind) (x : Elt k)
  | array (k : SeqKind) (xs : List (Elt k))
  | blob (name : String)
deriving DecidableEq

/-- What an extraction finds in the element it looks at; `nothing` when no flag is set and the target is left alone, and
`outside` when a sequence is indexed beyond its length. -/
inductive Found
  | got (x : Extracted)
  | failed (f : Flag)
  | nothing
  | outside
deriving DecidableEq

/-- An element whose value has another type than asked for. -/
def otherType (e : DevPipeDataElt) : Flag :=
  if e.value = .unionNoData then
    if e.innerBlob.length = 0 then .isempty else .wrongtype
  else .wrongtype

def look (t : ExtractType) (e : DevPipeDataElt) : Found :=
  match t with
  | .scalar k =>
    match seqValue k e.value with
    | none => .failed (otherType e)
    | some [] => .outside
    | some (x :: _) => .got (.scalar k x)
  | .devString =>
    match seqValue .string e.value with
    | none =>
      -- the one extraction that sets no flag for an inner blob
      if e.value = .unionNoData then
        if e.innerBlob.length = 0 then .failed .isempty else .nothing
      else .failed .wrongtype
    | some [] => .outside
    | some (x :: _) => .got (.scalar .string x)
  | .vector k _ | .seqPtr k =>
    match seqValue k e.value with
    | none => .failed (otherType e)
    | some xs => .got (.array k xs)
  | .blob =>
    if e.innerBlob.length = 0 then
      if e.value = .unionNoData then .failed .isempty else .failed .wrongtype
    else .got (.blob e.innerBlobName)

/-- The extraction into a pointer takes the buffer of the sequence with it. -/
def DevPipeDataElt.left (t : ExtractType) (e : DevPipeDataElt) : DevPipeDataElt :=
  match t with
  | .seqPtr k => if (seqValue k e.value).isSome then { e with value := .seq ⟨k,[]⟩ } else e
  | _ => e

end Extracting

inductive PipeError
  | devFailed (reason desc : String)
  | outside
deriving DecidableEq, Repr

/-- A `DevicePipeBlob`, by how it holds the array it inserts into and the array it extracts from. At most one bit of its
`ext_state` is set at a time. -/
structure DevicePipeBlob (ι ε : Type) where
  name : String
  exceptionsFlags : Flag → Bool
  extState : Option Flag
  failed : Bool
  insertEltArray : Option ι
  insertCtr : Int
  insertInd : Int
  extractEltArray : Option ε
  extractCtr : Int
  extractDelete : Bool
  extractInd : Int

namespace DevicePipeBlob

section Counters
variable {ι ε : Type}

def new (name : String) : DevicePipeBlob ι ε where
  name := name
  exceptionsFlags := fun _ => true
  extState := none
  failed := false
  insertEltArray := none
  insertCtr := 0
  insertInd := -1
  extractEltArray := none
  extractCtr := 0
  extractDelete := false
  extractInd := -1

/-- Where an insertion goes in an array of the given length, or why it fails. -/
def insertAt (b : DevicePipeBlob ι ε) : Option Nat → Except Flag Int
  | none => .error .blobdenamenotset
  | some nbInsert =>
    if b.insertCtr = -1 ∧ b.insertInd = -1 then .error .mixing
    else if nbInsert = 0 ∨ b.insertCtr > nbInsert - 1 then .error .notenoughde
    else .ok (if b.insertInd ≠ -1 then b.insertInd else b.insertCtr)

def inserted (b : DevicePipeBlob ι ε) : DevicePipeBlob ι ε :=
  if b.insertInd ≠ -1 then { b with insertInd := -1 } else { b with insertCtr := b.insertCtr + 1 }

/-- Which element of an array of the given length an extraction looks at, or why it fails. -/
def extractAt (b : DevicePipeBlob ι ε) : Option Nat → Except Flag Int
  | none => .error .isempty
  | some nb =>
    if b.extractCtr > nb - 1 then .error .notenoughde
    else if b.extractCtr = -1 ∧ b.extractInd = -1 then .error .mixing
    else .ok (if b.extractInd ≠ -1 then b.extractInd else b.extractCtr)

def extracted (b : DevicePipeBlob ι ε) : DevicePipeBlob ι ε :=
  if b.extractInd ≠ -1 then { b with extractInd := -1 } else { b with extractCtr := b.extractCtr + 1 }

/-- `failed` and `ext_state` as an operation leaves them. -/
def noted (f : Option Flag) (b : DevicePipeBlob ι ε) : DevicePipeBlob ι ε :=
  { b with failed := f.isSome, extState := f }

/-- The counters as the setting of the names or of the number of elements leaves them. -/
def restarted (b : DevicePipeBlob ι ε) : DevicePipeBlob ι ε :=
  { b with insertCtr := 0, extractCtr := 0, insertInd := -1, extractInd := -1 }

/-- The blob as a nested extraction leaves its target: the index of a `[]` is kept. -/
def targeted (array : ε) (name : String) (b : DevicePipeBlob ι ε) : DevicePipeBlob ι ε :=
  { b with extractEltArray := some array, name := name, extractCtr := 0 }

end Counters

section Elements

def emptyElt (name : String) : DevPipeDataElt := ⟨name,.unionNoData,[],""⟩

/-- The names that stand more than once in a sorted list. -/
def repeatedNames : List String → List String
  | a :: b :: rest => if a = b then a :: repeatedNames (b :: rest) else repeatedNames (b :: rest)
  | _ => []

/-- The array that `set_data_elt_names` makes, or why it does not. -/
def namedElts (names : List String) : Except PipeError Elts :=
  let lower := names.map Device.lowerName
  if lower.Nodup then .ok (names.map (fun n => emptyElt (cString n)))
  else
    let same := (lower.map String.ofList).mergeSort (fun a b => decide (a ≤ b))
    .error (.devFailed "API_PipeDuplicateDEName"
      ("Several times the same data element name in provided vector: " ++ ", ".intercalate (repeatedNames same)))

def numberedElts (nb : Nat) : Elts := List.replicate nb (emptyElt "")

def indFromName (es : Elts) (na : String) : Option Nat :=
  es.findIdx? (fun e => Device.lowerName e.name = Device.lowerName na)

def noSuchElement (na : String) : PipeError :=
  .devFailed "API_PipeWrongArg" ("Can't get data element with name " ++ na)

end Elements

section Index
variable {ι ε : Type}

/-- `get_extract_ind_from_name` as `operator[]` calls it: a blob without array is passed over. -/
def getExtractInd (es : Option Elts) (na : String) (b : DevicePipeBlob ι ε) : Except PipeError (DevicePipeBlob ι ε) :=
  match es with
  | none => .ok b
  | some es =>
    if b.extractCtr > 0 then
      .error (.devFailed "API_NotSupportedFeature" "Not supported to mix extraction type (operator >> and operator [])")
    else
      match indFromName es na with
      | none => .error (noSuchElement na)
      | some ind => .ok { b with extractCtr := -1, extractInd := ind }

def getInsertInd (es : Option Elts) (na : String) (b : DevicePipeBlob ι ε) : Except PipeError (DevicePipeBlob ι ε) :=
  match es with
  | none => .ok b
  | some es =>
    if b.insertCtr > 0 then
      .error (.devFailed "API_NotSupportedFeature" "Not supported to mix insertion type (operator << and operator [])")
    else
      match indFromName es na with
      | none => .error (noSuchElement na)
      | some ind => .ok { b with insertCtr := -1, insertInd := ind }

/-- `operator[]`, by the contents of the two arrays. What the first half did stays when the second throws. -/
def index (extract insert : Option Elts) (na : String) (b : DevicePipeBlob ι ε) :
    DevicePipeBlob ι ε × Option PipeError :=
  match b.getExtractInd extract na with
  | .error e => (b,some e)
  | .ok b =>
    match b.getInsertInd insert na with
    | .error e => (b,some e)
    | .ok b => (b,none)

end Index

end DevicePipeBlob

/-- An element of an array by an index of the code; a negative one is beyond every length. -/
def eltAt (es : Elts) (ind : Int) : Option DevPipeDataElt := if ind < 0 then none else es[ind.toNat]?

section Descriptions

def scalarType : SeqKind → CmdArgType
  | .boolean => .devBoolean
  | .short => .devShort
  | .long => .devLong
  | .long64 => .devLong64
  | .float => .devFloat
  | .double => .devDouble
  | .uchar => .devUChar
  | .ushort => .devUShort
  | .ulong => .devULong
  | .ulong64 => .devULong64
  | .string => .devString
  | .state => .devState
  | .encoded => .devEncoded

def arrayType : SeqKind → CmdArgType
  | .boolean => .devVarBooleanArray
  | .short => .devVarShortArray
  | .long => .devVarLongArray
  | .long64 => .devVarLong64Array
  | .float => .devVarFloatArray
  | .double => .devVarDoubleArray
  | .uchar => .devVarCharArray
  | .ushort => .devVarUShortArray
  | .ulong => .devVarULongArray
  | .ulong64 => .devVarULong64Array
  | .string => .devVarStringArray
  | .state => .devVarStateArray
  | .encoded => .devVarEncodedArray

/-- The type that is told of an element; for `DevEncoded` the mark is not looked at. -/
def eltType (e : DevPipeDataElt) : Except PipeError CmdArgType :=
  if e.innerBlob.length ≠ 0 then .ok .devPipeBlob
  else
    match e.value with
    | .seq ⟨.encoded,_⟩ => .ok .devEncoded
    | .seq ⟨k,_⟩ => .ok (if e.innerBlobName = scalarPipe then scalarType k else arrayType k)
    | .devStateAtt _ | .unionNoData =>
      .error (.devFailed "API_PipeWrongArg" "Unsupported data type in data element! (ATT_NO_DATA, DEVICE_STATE)")

def neverReceived : PipeError :=
  .devFailed "API_PipeWrongArg"
    "You try to get data element name(s) for a blob which has never been received from a device"

def indexAbove (ind nb : Nat) : PipeError :=
  .devFailed "API_PipeWrongArg" (s!"Given index ({ind}) is above the number of data element in the data blob ({nb})")

/-- The element of an index as the describing functions get it: only an index above the length is refused. -/
def described (extract : Option Elts) (ind : Nat) : Except PipeError DevPipeDataElt :=
  match extract with
  | none => .error neverReceived
  | some es =>
    if ind > es.length then .error (indexAbove ind es.length)
    else
      match es[ind]? with
      | none => .error .outside
      | some e => .ok e

def getDataEltName (extract : Option Elts) (ind : Nat) : Except PipeError String :=
  (described extract ind).map DevPipeDataElt.name

def getDataEltType (extract : Option Elts) (ind : Nat) : Except PipeError CmdArgType :=
  (described extract ind).bind eltType

def getDataEltNames (extract : Option Elts) : Except PipeError (List String) :=
  match extract with
  | none => .error neverReceived
  | some es => .ok (es.map DevPipeDataElt.name)

def getDataEltNb (extract insert : Option Elts) : Nat :=
  match extract with
  | some es => es.length
  | none => (insert.map List.length).getD 0

end Descriptions

end CppTango.Client.Pipe
