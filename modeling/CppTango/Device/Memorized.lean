import CppTango.Device.WriteSpec
import CppTango.Lib.Numbers

namespace CppTango.Device.Memorized

open CppTango.Lib CppTango.Device.Write

/-- The types of memorized attributes, less the floating point ones. -/
inductive MemType
  | devShort | devEnum | devLong | devLong64 | devUShort | devUChar | devULong | devULong64
  | devBoolean | devString
deriving DecidableEq, Repr

inductive Value
  | short (v : Int16)
  | long (v : Int32)
  | long64 (v : Int64)
  | ushort (v : UInt16)
  | uchar (v : UInt8)
  | ulong (v : UInt32)
  | ulong64 (v : UInt64)
  | boolean (v : Bool)
  | string (v : String)
deriving DecidableEq, Repr

def Value.hasType : Value → MemType → Bool
  | .short _,.devShort | .short _,.devEnum | .long _,.devLong | .long64 _,.devLong64
  | .ushort _,.devUShort | .uchar _,.devUChar | .ulong _,.devULong | .ulong64 _,.devULong64
  | .boolean _,.devBoolean | .string _,.devString => true
  | _,_ => false

/-- The text of a value in the database, as `DbDatum` makes it. -/
def dbText : Value → String
  | .short v => String.ofList (intText v.toInt)
  | .long v => String.ofList (intText v.toInt)
  | .long64 v => String.ofList (intText v.toInt)
  | .ushort v => String.ofList (intText v.toNat)
  | .uchar v => String.ofList (intText v.toNat)
  | .ulong v => String.ofList (intText v.toNat)
  | .ulong64 v => String.ofList (intText v.toNat)
  | .boolean v => if v then "true" else "false"
  | .string v => v

/-- A boolean read with `boolalpha`. -/
def readBool (s : List Char) : Option Bool :=
  let s := s.dropWhile isSpace
  if "true".toList <+: s then some true
  else if "false".toList <+: s then some false
  else none

/-- The value `set_memorized_values` reads from a text, unless its format is incorrect. -/
def memRead (t : MemType) (memValue : String) : Option Value :=
  let s := memValue.toList
  match t with
  | .devShort | .devEnum => (readSigned 16 s).map (fun i => .short (Int16.ofInt i))
  | .devLong => (readSigned 32 s).map (fun i => .long (Int32.ofInt i))
  | .devLong64 => (readSigned 64 s).map (fun i => .long64 (Int64.ofInt i))
  | .devUShort => (readUnsigned 16 s).map (fun n => .ushort (UInt16.ofNat n))
  | .devUChar => (readSigned 16 s).map (fun i => .uchar (UInt8.ofInt i))
  | .devULong => (readUnsigned 32 s).map (fun n => .ulong (UInt32.ofNat n))
  | .devULong64 => (readUnsigned 64 s).map (fun n => .ulong64 (UInt64.ofNat n))
  | .devBoolean => (readBool s).map .boolean
  | .devString => some (.string memValue)

/-- A scalar attribute; `outsideLimit` is the check of its limits or enumeration labels. -/
structure MemAttr where
  name : String
  writable : AttrWriteType
  dataType : MemType
  memorized : Bool
  memorizedInit : Bool
  outsideLimit : Value → Option String

def MemAttr.conf (m : MemAttr) (memorized : Bool) : AttrConf Value where
  name := m.name
  writable := m.writable
  dataFormat := .scalar
  maxDimX := 1
  maxDimY := 0
  startupException := none
  memorized := memorized
  incompatible := fun seq =>
    if seq.all (fun v => v.hasType m.dataType) then none
    else some ("Incompatible attribute type for attribute " ++ m.name)
  outsideLimit := fun seq => seq.findSome? m.outsideLimit

/-- What the code of the device does in one call; a write method does not set the written value
itself. -/
structure UserCode where
  isAllowed : Nat → Bool
  writeError : Nat → Option DevErrorList
  writeAttrHardware : List Nat → HardwareResult

structure MemDevice where
  attrs : List MemAttr
  idlVersion : Nat
  stateName : String

def notUsed : String := "Not used yet"

section Calls
variable (d : MemDevice)

/-- The device as `write_attributes_34` sees it, with the memorized flags as they are. -/
def impl (memorized : Nat → Bool) (u : UserCode) (dbError : Option DevErrorList) :
    DeviceImpl Value where
  attrs := d.attrs.mapIdx (fun i m => m.conf (memorized i))
  idlVersion := d.idlVersion
  stateName := d.stateName
  isAllowed := u.isAllowed
  write := fun i =>
    match u.writeError i with
    | none => .done none
    | some e => .devFailed e
  writeAttrHardware := u.writeAttrHardware
  useDb := true
  writeAttributesInDb := fun _ => dbError

/-- The attributes' values and the `__value` properties in the database. -/
structure State where
  wattrs : Nat → WAttribute Value
  db : Nat → Option String

def MemDevice.memorizedFlag (i : Nat) : Bool :=
  match d.attrs[i]? with
  | some m => m.memorized
  | none => false

/-- The first element of the last written value, as text. -/
def lastWrittenText (w : WAttribute Value) : Option String := w.lastWrittenValue.head?.map dbText

/-- What a successful call leaves: every memorized attribute that was written is in the
database. -/
def store (dev : DeviceImpl Value) (values : List (AttributeValue Value)) (out : Work Value)
    (db : Nat → Option String) : Nat → Option String := fun i =>
  if (selected dev values).any (fun a => a.idxInMultiAttr = i ∧ dev.isMemorized a) then
    lastWrittenText (out.wattrs i)
  else db i

structure WriteCall where
  user : UserCode
  values : List (AttributeValue Value)

/-- A call of `write_attributes_34`, when it is successful. -/
def writeAttributes (st : State) (c : WriteCall) : Option State :=
  let dev := impl d d.memorizedFlag c.user none
  match writeAttributes34 dev st.wattrs c.values with
  | some out => if out.errs = [] then some ⟨out.wattrs,store dev c.values out st.db⟩ else none
  | none => none

def writeAll (st : State) (calls : List WriteCall) : Option State :=
  calls.foldlM (writeAttributes d) st

end Calls

section Restart
variable (d : MemDevice)

def MemType.initial : MemType → Value
  | .devShort | .devEnum => .short 0
  | .devLong => .long 0
  | .devLong64 => .long64 0
  | .devUShort => .ushort 0
  | .devUChar => .uchar 0
  | .devULong => .ulong 0
  | .devULong64 => .ulong64 0
  | .devBoolean => .boolean true
  | .devString => .string "Not initialised"

def MemDevice.initial (i : Nat) : WAttribute Value :=
  match d.attrs[i]? with
  | some m => ⟨[m.dataType.initial],[m.dataType.initial],[m.dataType.initial],false⟩
  | none => ⟨[],[],[],false⟩

/-- A device that has never been written. -/
def fresh : State := ⟨d.initial,fun _ => none⟩

/-- The device while it starts up. -/
structure Started where
  wattrs : Nat → WAttribute Value
  memorized : Nat → Bool
  memException : Nat → Option DevErrorList

/-- `WAttribute::WAttribute` for every attribute; `memValue` is what it finds in the database. -/
def started : Started := ⟨d.initial,d.memorizedFlag,fun _ => none⟩

def memValue (db : Nat → Option String) (i : Nat) : String := (db i).getD notUsed

def Started.mark (s : Started) (i : Nat) (flag : Bool) : Started :=
  { s with memorized := Function.update s.memorized i flag }

/-- `set_write_value` of one value that has passed its check. -/
def setWriteValue (v : Value) (w : WAttribute Value) : WAttribute Value :=
  { setValue true [v] w with lastWrittenValue := [v], userSetWriteValue := true }

def writable (m : MemAttr) : Bool := m.writable = .write || m.writable = .readWrite

/-- One attribute of the loop in `set_memorized_values`; `attVal` is the list of values to
write. -/
def restoreOne (db : Nat → Option String) (i : Nat) (m : MemAttr)
    (acc : Started × List (AttributeValue Value)) : Started × List (AttributeValue Value) :=
  let (s,attVal) := acc
  if writable m = false then acc
  else if s.memorized i = false then acc
  else if memValue db i = notUsed then acc
  else
    let s := s.mark i false
    match memRead m.dataType (memValue db i) with
    | none => (s.mark i true,attVal)
    | some v =>
      let element : AttributeValue Value := ⟨m.name,1,0,[v]⟩
      match checkWrittenValue (m.conf false) element with
      | .passed =>
        let s := { s with wattrs := Function.update s.wattrs i (setWriteValue v (s.wattrs i)) }
        if m.memorizedInit then (s,attVal ++ [element]) else (s.mark i true,attVal)
      | _ => (s.mark i true,attVal)

def restoreAll (db : Nat → Option String) (s : Started) : Started × List (AttributeValue Value) :=
  (d.attrs.zipIdx).foldl (fun acc p => restoreOne db p.2 p.1 acc) (s,[])

/-- The index of the attribute that a value of the list is for. -/
def attrOf (attVal : List (AttributeValue Value)) (k : Nat) : Option Nat :=
  (attVal[k]?).bind (fun v => (getAttrIndByName (d.attrs.map MemAttr.name) v.name).toOption)

/-- Each error of a `MultiDevFailed` goes to the attribute of its place in the list. -/
def setMemExceptions (attVal : List (AttributeValue Value)) (errs : List NamedDevError)
    (ex : Nat → Option DevErrorList) : Nat → Option DevErrorList :=
  errs.foldl (fun ex e =>
    match attrOf d attVal e.indexInCall with
    | some i => Function.update ex i (some e.errList)
    | none => ex) ex

def remark (attVal : List (AttributeValue Value)) (flags : Nat → Bool) : Nat → Bool :=
  (List.range attVal.length).foldl (fun flags k =>
    match attrOf d attVal k with
    | some i => Function.update flags i true
    | none => flags) flags

/-- The write methods that were called: attribute and value. -/
def methodCalls (attVal : List (AttributeValue Value)) (log : List Event) : List (Nat × Value) :=
  log.filterMap (fun e =>
    match e with
    | .written k =>
      (attrOf d attVal k).bind (fun i => ((attVal[k]?).bind (fun v => v.seq.head?)).map (fun v => (i,v)))
    | .checked _ => none)

/-- `set_memorized_values` at start-up, for one device. -/
def setMemorizedValues (u : UserCode) (db : Nat → Option String) :
    Option (Started × List (Nat × Value)) :=
  let (s,attVal) := restoreAll d db (started d)
  if attVal = [] then some (s,[])
  else
    (writeAttributes34 (impl d s.memorized u none) s.wattrs attVal).map (fun out =>
      ({ wattrs := out.wattrs
         memorized := remark d attVal s.memorized
         memException := setMemExceptions d attVal out.errs s.memException },
        methodCalls d attVal out.log))

end Restart

end CppTango.Device.Memorized
