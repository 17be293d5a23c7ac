import CppTango.Device.Write

namespace CppTango.Device.Rollback

open Write (NamedDevError HardwareResult lengthWrong toUnsigned)

/-- The `data_type` of an attribute. -/
inductive AttrDataType
  | short | long | double | string | float | boolean | ushort | uchar | long64 | ulong | ulong64
  | state | encoded | enum
deriving DecidableEq, Repr

/-- The sequences a value of the type travels in. -/
def AttrDataType.kind : AttrDataType → SeqKind
  | .short | .enum => .short
  | .long => .long
  | .double => .double
  | .string => .string
  | .float => .float
  | .boolean => .boolean
  | .ushort => .ushort
  | .uchar => .uchar
  | .long64 => .long64
  | .ulong => .ulong
  | .ulong64 => .ulong64
  | .state => .state
  | .encoded => .encoded

/-- A writable attribute as the device defines it. `checkDataLimits` is the check against the
limits and labels it has at the time of the call, with the text of its error. -/
structure AttrConf where
  name : String
  writable : AttrWriteType
  dataType : AttrDataType
  dataFormat : AttrDataFormat
  maxDimX : Int
  maxDimY : Int
  startupException : Option DevErrorList
  checkDataLimits : Seq → Option String

structure AttributeValue where
  name : String
  dimX : Int
  dimY : Int
  value : AttrValUnion
deriving DecidableEq

/-- The values of a `WAttribute`. The value of a scalar is a sequence of one element; for
anything else `writeValue` is the sequence the value pointer shows. -/
structure WAttribute where
  writeValue : Seq
  oldValue : Seq
  wDimX : Int
  wDimY : Int
  lastWrittenValue : Seq
  userSetWriteValue : Bool
deriving DecidableEq

/-- A call of `set_write_value` that returned. -/
structure UserSet where
  seq : Seq
  x : Nat
  y : Nat
deriving DecidableEq

/-- What a write method does: the values it sets itself, and the errors it ends with. Of a
`MultiDevFailed` only the first list is kept. -/
structure UserWrite where
  sets : List UserSet
  raised : Option DevErrorList
deriving DecidableEq

/-- The device, and what its methods answer in the call, for each place in the call. -/
structure DeviceImpl where
  attrs : List AttrConf
  idlVersion : Nat
  stateName : String
  isAllowed : Nat → Bool
  write : Nat → UserWrite
  writeAttrHardware : List Nat → HardwareResult

/-- An element still to be written. -/
structure AttIdx (dev : DeviceImpl) where
  idxInNames : Nat
  idxInMultiAttr : Fin dev.attrs.length
  value : AttributeValue
deriving DecidableEq

/-- `checked` are the places whose check has passed. -/
structure Work (dev : DeviceImpl) where
  wattrs : Fin dev.attrs.length → WAttribute
  errs : List NamedDevError
  checked : List Nat

/-- How the call, or a part of it, ends. -/
inductive Outcome (dev : DeviceImpl)
  /-- the code leaves what it may do -/
  | outOfRange
  /-- an exception that is not caught -/
  | thrown (errors : DevErrorList) (w : Work dev)
  | ended (updated : List (AttIdx dev)) (w : Work dev)

section Checks

def notWritable (att : AttrConf) : DevErrorList :=
  thrown "API_AttrNotWritable" ("Attribute " ++ att.name ++ " is not writable") Write.origin

def wrongDim (dim : String) (att : AttrConf) : DevErrorList :=
  thrown "API_WAttrOutsideLimit"
    (dim ++ " dimesion is greater than the max defined for attribute " ++ att.name) Write.origin

/-- The checks of the first loop. -/
def checkConf (att : AttrConf) (v : AttributeValue) : Option DevErrorList :=
  if att.writable = .read ∨ att.writable = .readWithWrite then some (notWritable att)
  else if att.dataFormat ≠ .scalar ∧ att.maxDimX < v.dimX then some (wrongDim "X" att)
  else if att.dataFormat ≠ .scalar ∧ att.maxDimY < v.dimY then some (wrongDim "Y" att)
  else att.startupException

def attrNotFound (attrName : String) : DevErrorList :=
  thrown "API_AttrNotFound" (attrName ++ " attribute not found") "MultiAttribute::get_attr_ind_by_name"

def select (dev : DeviceImpl) (v : AttributeValue) : Except DevErrorList (Fin dev.attrs.length) :=
  match dev.attrs.findFinIdx? (fun att => lowerName att.name = lowerName v.name) with
  | none => .error (attrNotFound v.name)
  | some ind =>
    match checkConf dev.attrs[ind] v with
    | some e => .error e
    | none => .ok ind

def selectedAt (dev : DeviceImpl) (p : AttributeValue × Nat) : Option (AttIdx dev) :=
  match select dev p.1 with
  | .ok ind => some ⟨p.2,ind,p.1⟩
  | .error _ => none

def rejectedAt (dev : DeviceImpl) (p : AttributeValue × Nat) : Option NamedDevError :=
  match select dev p.1 with
  | .ok _ => none
  | .error e => some ⟨p.1.name,p.2,e⟩

/-- The elements the first loop keeps, -/
def selected (dev : DeviceImpl) (values : List AttributeValue) : List (AttIdx dev) :=
  values.zipIdx.filterMap (selectedAt dev)

/-- and the errors of the others. -/
def rejected (dev : DeviceImpl) (values : List AttributeValue) : List NamedDevError :=
  values.zipIdx.filterMap (rejectedAt dev)

inductive CheckResult
  | passed (seq : Seq)
  | failed (errors : DevErrorList)
  /-- the first element of an empty sequence is read -/
  | outOfRange
deriving DecidableEq

def arrayName : SeqKind → String
  | .boolean => "DevVarBooleanArray"
  | .short => "DevVarShortArray"
  | .long => "DevVarLongArray"
  | .long64 => "DevVarLong64Array"
  | .float => "DevVarFloatArray"
  | .double => "DevVarDoubleArray"
  | .uchar => "DevVarCharArray"
  | .ushort => "DevVarUShortArray"
  | .ulong => "DevVarULongArray"
  | .ulong64 => "DevVarULong64Array"
  | .string => "DevVarStringArray"
  | .state => "DevVarStateArray"
  | .encoded => "DevVarEncodedArray"

def unionName : AttrValUnion → String
  | .seq s => arrayName s.kind
  | .devStateAtt _ => "UnknownAttrValUnion<dtype=12>"
  | .unionNoData => "UnknownAttrValUnion<dtype=14>"

def incompatible (expected : SeqKind) (found : AttrValUnion) : DevErrorList :=
  thrown "API_IncompatibleAttrDataType" ("Incompatible attribute type: expected Tango::" ++
    arrayName expected ++ " (even for single value), found Tango::" ++ unionName found)
    "WAttribute::check_written_value()"

/-- `check_written_value`, up to the changes it makes. -/
def checkWrittenValue (att : AttrConf) (v : AttributeValue) : CheckResult :=
  match v.value with
  | .seq s =>
    if s.kind ≠ att.dataType.kind then .failed (incompatible att.dataType.kind v.value)
    else if lengthWrong s.elts.length (toUnsigned v.dimX) (toUnsigned v.dimY) then
      .failed (thrown "API_AttrIncorrectDataNumber" "Incorrect data number" "check_length")
    else
      match att.checkDataLimits s with
      | some desc => .failed (thrown "API_WAttrOutsideLimit" desc "check_data_limits")
      | none => if att.dataFormat = .scalar ∧ s.elts = [] then .outOfRange else .passed s
  | u => .failed (incompatible att.dataType.kind u)

end Checks

section Changes

def initialElt : (k : SeqKind) → Elt k
  | .boolean => true
  | .short => 0
  | .long => 0
  | .long64 => 0
  | .float => 0
  | .double => 0
  | .uchar => 0
  | .ushort => 0
  | .ulong => 0
  | .ulong64 => 0
  | .string => "Not initialised"
  | .state => .unknown
  | .encoded => ⟨"Not initialised",[]⟩

/-- The values of a `WAttribute` that is built. Of the value pointers only the one for shorts
shows something. -/
def newWAttribute (att : AttrConf) : WAttribute :=
  let init : Seq := ⟨att.dataType.kind,[initialElt att.dataType.kind]⟩
  let shown := att.dataFormat = .scalar ∨ att.dataType.kind = .short
  ⟨if shown then init else ⟨att.dataType.kind,[]⟩,init,1,0,init,false⟩

def Seq.first (s : Seq) : Seq := ⟨s.kind,s.elts.take 1⟩

/-- The end of `update_internal_sequence`: a scalar keeps the value it had, anything else is
only pointed to. -/
def updateInternalSequence (att : AttrConf) (seq : Seq) (x y : Int) (w : WAttribute) : WAttribute :=
  if att.dataFormat = .scalar then
    { w with oldValue := w.writeValue, writeValue := Seq.first seq, wDimX := 1, wDimY := 0 }
  else { w with writeValue := seq, wDimX := x, wDimY := y }

/-- Nothing is copied for an encoded value. -/
def copyData (att : AttrConf) (seq : Seq) (w : WAttribute) : WAttribute :=
  if att.dataType = .encoded then w else { w with lastWrittenValue := seq }

/-- There is no `set_write_value` of an encoded value that returns. -/
def setWriteValue (att : AttrConf) (w : WAttribute) (u : UserSet) : WAttribute :=
  if att.dataType = .encoded then w
  else { copyData att u.seq (updateInternalSequence att u.seq u.x u.y w) with userSetWriteValue := true }

/-- For bytes the text of the attribute, which it never uses, is freed instead. -/
def rollback (t : AttrDataType) (w : WAttribute) : Except DevErrorList WAttribute :=
  match t with
  | .uchar => .ok w
  | .encoded => .error (thrown "API_NotSupportedFeature"
      "This is a not supported call in case of DevEncoded attribute" "WAttribute::rollback")
  | _ => .ok { w with writeValue := w.oldValue }

/-- What an error does to the value: only scalars are rolled back. -/
def undo (att : AttrConf) (w : WAttribute) : Except DevErrorList WAttribute :=
  if att.dataFormat = .scalar then rollback att.dataType w else .ok w

/-- The set value a read sends: a buffer and its dimensions. -/
def setRvalue (att : AttrConf) (w : WAttribute) : Seq × Int × Int :=
  if att.dataFormat = .scalar then (w.writeValue,1,0) else (w.lastWrittenValue,w.wDimX,w.wDimY)

end Changes

section Loops
variable {dev : DeviceImpl}

def AttIdx.conf (a : AttIdx dev) : AttrConf := dev.attrs[a.idxInMultiAttr]

def Work.upd (w : Work dev) (a : AttIdx dev) (f : WAttribute → WAttribute) : Work dev :=
  { w with wattrs := Function.update w.wattrs a.idxInMultiAttr (f (w.wattrs a.idxInMultiAttr)) }

def Work.fail (w : Work dev) (name : String) (i : Nat) (e : DevErrorList) : Work dev :=
  { w with errs := w.errs ++ [⟨name,i,e⟩] }

def Outcome.bind (o : Outcome dev) (f : List (AttIdx dev) → Work dev → Outcome dev) : Outcome dev :=
  match o with
  | .ended updated w => f updated w
  | o => o

/-- The loop that checks the values. `front` are the elements the iterator has passed; an
element that fails is erased, and the loop ends when it was the first of the vector. -/
def checkLoop (front : List (AttIdx dev)) : List (AttIdx dev) → Work dev → Outcome dev
  | [],w => .ended front w
  | a::rest,w =>
    match checkWrittenValue a.conf a.value with
    | .outOfRange => .outOfRange
    | .passed s => checkLoop (front ++ [a]) rest
        { w.upd a (updateInternalSequence a.conf s a.value.dimX a.value.dimY) with
          checked := w.checked ++ [a.idxInNames] }
    | .failed e =>
      let w := w.fail a.value.name a.idxInNames e
      if front = [] then .ended rest w else checkLoop front rest w

def notAllowed (a : AttIdx dev) : DevErrorList :=
  thrown "API_AttrNotAllowed" ("It is currently not allowed to write attribute " ++
    a.conf.name ++ ". The device state is " ++ dev.stateName) Write.origin

/-- The values the write method of an element sets. -/
def AttIdx.sets (a : AttIdx dev) : List UserSet :=
  if dev.isAllowed a.idxInNames then (dev.write a.idxInNames).sets else []

/-- The errors the write of an element ends with. -/
def AttIdx.writeOne (a : AttIdx dev) : Option DevErrorList :=
  if dev.isAllowed a.idxInNames then (dev.write a.idxInNames).raised else some (notAllowed a)

/-- One turn of the write loop up to its exception. -/
def written (a : AttIdx dev) (w : WAttribute) : WAttribute :=
  a.sets.foldl (setWriteValue a.conf) { w with userSetWriteValue := false }

/-- An exception handler: the value is rolled back, which may throw, and the error reported. -/
def refuse (a : AttIdx dev) (name : String) (i : Nat) (e : DevErrorList) (w : Work dev)
    (next : Work dev → Outcome dev) : Outcome dev :=
  match undo a.conf (w.wattrs a.idxInMultiAttr) with
  | .error e => .thrown e w
  | .ok x => next ((w.upd a (fun _ => x)).fail name i e)

def writeLoop : List (AttIdx dev) → Work dev → Outcome dev
  | [],w => .ended [] w
  | a::rest,w =>
    let w := w.upd a (written a)
    match a.writeOne with
    | none => (writeLoop rest w).bind fun updated w => .ended (a :: updated) w
    | some e => refuse a a.value.name a.idxInNames e w (writeLoop rest)

/-- The errors of a `MultiDevFailed`, each for the element with its name, which is erased;
erasing the end of the vector has no meaning. -/
def multiLoop : List (String × DevErrorList) → List (AttIdx dev) → Work dev → Outcome dev
  | [],updated,w => .ended updated w
  | (name,e)::es,updated,w =>
    match updated.find? (fun a => lowerName a.conf.name = lowerName name) with
    | none => .outOfRange
    | some a => refuse a name a.idxInNames e w
        (multiLoop es (updated.eraseP fun a => lowerName a.conf.name = lowerName name))

/-- The place of the first element for the same attribute. -/
def firstPlace (updated : List (AttIdx dev)) (a : AttIdx dev) : Nat :=
  ((updated.find? (fun b => b.idxInMultiAttr = a.idxInMultiAttr)).map AttIdx.idxInNames).getD a.idxInNames

/-- A `DevFailed` of `write_attr_hardware` counts for every element it was called for. -/
def failAll (updated : List (AttIdx dev)) (e : DevErrorList) : List (AttIdx dev) → Work dev → Outcome dev
  | [],w => .ended [] w
  | a::rest,w => refuse a a.conf.name (firstPlace updated a) e w (failAll updated e rest)

def hardware (updated : List (AttIdx dev)) (w : Work dev) : Outcome dev :=
  if 4 ≤ dev.idlVersion then
    match dev.writeAttrHardware (updated.map fun a => a.idxInMultiAttr.val) with
    | .done => .ended updated w
    | .devFailed e => failAll updated e updated w
    | .multiDevFailed es => multiLoop es updated w
  else .ended updated w

/-- The end of the call for one element: the data is copied unless the method has set it. -/
def copied (a : AttIdx dev) (w : WAttribute) : WAttribute :=
  match a.value.value with
  | .seq s => if w.userSetWriteValue then w else copyData a.conf s w
  | _ => w

def copyLoop : List (AttIdx dev) → Work dev → Work dev
  | [],w => w
  | a::rest,w => copyLoop rest (w.upd a (copied a))

end Loops

def writeAttributes34 (dev : DeviceImpl) (wattrs : Fin dev.attrs.length → WAttribute)
    (values : List AttributeValue) : Outcome dev :=
  (checkLoop [] (selected dev values) ⟨wattrs,rejected dev values,[]⟩).bind fun updated w =>
    (if w.errs.length ≠ values.length then (writeLoop updated w).bind hardware
      else .ended updated w).bind fun updated w => .ended updated (copyLoop updated w)

end CppTango.Device.Rollback
