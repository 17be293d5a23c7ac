import CppTango.Device.MultiAttribute
import Mathlib.Algebra.Ring.Int.Defs
import Mathlib.Algebra.Ring.Nat
import Mathlib.Logic.Function.Basic

namespace CppTango.Device.Write

/-- A writable attribute as the device defines it. `incompatible` and `outsideLimit` are the
checks of a value's type and of its data, with the text of their error. -/
structure AttrConf (α : Type) where
  name : String
  writable : AttrWriteType
  dataFormat : AttrDataFormat
  maxDimX : Int
  maxDimY : Int
  startupException : Option DevErrorList
  memorized : Bool
  incompatible : List α → Option String
  outsideLimit : List α → Option String

/-- One element of the call. -/
structure AttributeValue (α : Type) where
  name : String
  dimX : Int
  dimY : Int
  seq : List α
deriving DecidableEq, Repr

structure NamedDevError where
  name : String
  indexInCall : Nat
  errList : DevErrorList
deriving DecidableEq, Repr

/-- What a `WAttribute` holds of the values written to it. -/
structure WAttribute (α : Type) where
  writeValue : List α
  oldValue : List α
  lastWrittenValue : List α
  userSetWriteValue : Bool
deriving DecidableEq, Repr

inductive WriteResult (α : Type)
  /-- the method returned, having set the written value itself or not -/
  | done (userValue : Option (List α))
  | devFailed (errors : DevErrorList)
  /-- of a `MultiDevFailed` only the first error is kept -/
  | multiDevFailed (firstErrList : DevErrorList)
deriving DecidableEq, Repr

inductive HardwareResult
  | done
  | devFailed (errors : DevErrorList)
  | multiDevFailed (errors : List (String × DevErrorList))
deriving DecidableEq, Repr

/-- The device: its attributes, what its methods answer in this call, and the database. -/
structure DeviceImpl (α : Type) where
  attrs : List (AttrConf α)
  idlVersion : Nat
  stateName : String
  isAllowed : Nat → Bool
  write : Nat → WriteResult α
  writeAttrHardware : List Nat → HardwareResult
  useDb : Bool
  writeAttributesInDb : List Nat → Option DevErrorList

inductive Event
  | checked (idxInNames : Nat)
  | written (idxInNames : Nat)
deriving DecidableEq, Repr

def Event.about : Event → Nat
  | .checked i | .written i => i

/-- An element still to be written: its place in the call, its attribute and its value. -/
structure AttIdx (α : Type) where
  idxInNames : Nat
  idxInMultiAttr : Nat
  value : AttributeValue α
deriving DecidableEq, Repr

structure Work (α : Type) where
  wattrs : Nat → WAttribute α
  errs : List NamedDevError
  log : List Event

variable {α : Type}

def origin : String := "Device_3Impl::write_attributes_34"

def DeviceImpl.names (dev : DeviceImpl α) : List String := dev.attrs.map AttrConf.name

def notWritable (att : AttrConf α) : DevErrorList :=
  thrown "API_AttrNotWritable" ("Attribute " ++ att.name ++ " is not writable") origin

def wrongDim (dim : String) (att : AttrConf α) : DevErrorList :=
  thrown "API_WAttrOutsideLimit"
    (dim ++ " dimesion is greater than the max defined for attribute " ++ att.name) origin

/-- The checks of the first loop, up to the start-up exception. -/
def checkConf (att : AttrConf α) (v : AttributeValue α) : Option DevErrorList :=
  if att.writable = .read ∨ att.writable = .readWithWrite then some (notWritable att)
  else if att.dataFormat ≠ .scalar ∧ att.maxDimX < v.dimX then some (wrongDim "X" att)
  else if att.dataFormat ≠ .scalar ∧ att.maxDimY < v.dimY then some (wrongDim "Y" att)
  else att.startupException

def select (dev : DeviceImpl α) (v : AttributeValue α) : Except DevErrorList Nat :=
  match getAttrIndByName dev.names v.name with
  | .error e => .error e
  | .ok ind =>
    match dev.attrs[ind]? with
    | none => .ok ind
    | some att =>
      match checkConf att v with
      | some e => .error e
      | none => .ok ind

/-- The first loop: the elements to go on with, and the errors of the others. -/
def selectAll (dev : DeviceImpl α) : Nat → List (AttributeValue α) → List (AttIdx α) × List NamedDevError
  | _,[] => ([],[])
  | i,v::vs =>
    let r := selectAll dev (i + 1) vs
    match select dev v with
    | .ok ind => (⟨i,ind,v⟩ :: r.1,r.2)
    | .error e => (r.1,⟨v.name,i,e⟩ :: r.2)

inductive CheckResult
  | passed
  | failed (errors : DevErrorList)
  /-- the first element of an empty sequence is read -/
  | outOfRange
deriving DecidableEq, Repr

def toUnsigned (d : Int) : Nat := (d % 2 ^ 64).toNat

def lengthWrong (nbData x y : Nat) : Prop :=
  (y = 0 ∧ nbData ≠ x) ∨ (y ≠ 0 ∧ nbData ≠ (x * y) % 2 ^ 64)

instance (nbData x y : Nat) : Decidable (lengthWrong nbData x y) := by
  unfold lengthWrong
  infer_instance

/-- `check_written_value`: type, number of data, limits. -/
def checkWrittenValue (att : AttrConf α) (v : AttributeValue α) : CheckResult :=
  match att.incompatible v.seq with
  | some desc => .failed (thrown "API_IncompatibleAttrDataType" desc "WAttribute::check_written_value()")
  | none =>
    if lengthWrong v.seq.length (toUnsigned v.dimX) (toUnsigned v.dimY) then
      .failed (thrown "API_AttrIncorrectDataNumber" "Incorrect data number" "check_length")
    else
      match att.outsideLimit v.seq with
      | some desc => .failed (thrown "API_WAttrOutsideLimit" desc "check_data_limits")
      | none => if att.dataFormat = .scalar ∧ v.seq = [] then .outOfRange else .passed

def DeviceImpl.conf (dev : DeviceImpl α) (a : AttIdx α) : Option (AttrConf α) := dev.attrs[a.idxInMultiAttr]?

def DeviceImpl.isScalar (dev : DeviceImpl α) (a : AttIdx α) : Bool :=
  match dev.conf a with
  | some att => att.dataFormat = .scalar
  | none => false

def DeviceImpl.check (dev : DeviceImpl α) (a : AttIdx α) : CheckResult :=
  match dev.conf a with
  | some att => checkWrittenValue att a.value
  | none => .outOfRange

/-- Set the value of a scalar, keeping the one before; anything else is only pointed to. -/
def setValue (scalar : Bool) (seq : List α) (w : WAttribute α) : WAttribute α :=
  if scalar then { w with oldValue := w.writeValue, writeValue := seq.take 1 }
  else { w with writeValue := seq }

def rollback (scalar : Bool) (w : WAttribute α) : WAttribute α :=
  if scalar then { w with writeValue := w.oldValue } else w

def Work.upd (w : Work α) (ind : Nat) (f : WAttribute α → WAttribute α) : Work α :=
  { w with wattrs := Function.update w.wattrs ind (f (w.wattrs ind)) }

def Work.fail (w : Work α) (name : String) (i : Nat) (e : DevErrorList) : Work α :=
  { w with errs := w.errs ++ [⟨name,i,e⟩] }

def Work.note (w : Work α) (e : Event) : Work α := { w with log := w.log ++ [e] }

/-- The loop that checks the values. `front` are the elements the iterator has passed; an
element that fails is erased, and the loop ends when it was the first of the vector. -/
def checkLoop (dev : DeviceImpl α) (front : List (AttIdx α)) :
    List (AttIdx α) → Work α → Option (List (AttIdx α) × Work α)
  | [],w => some (front,w)
  | a::rest,w =>
    match dev.check a with
    | .outOfRange => none
    | .passed => checkLoop dev (front ++ [a]) rest
        ((w.upd a.idxInMultiAttr (setValue (dev.isScalar a) a.value.seq)).note (.checked a.idxInNames))
    | .failed e =>
      let w := w.fail a.value.name a.idxInNames e
      if front = [] then some (rest,w) else checkLoop dev front rest w

def notAllowed (dev : DeviceImpl α) (a : AttIdx α) : DevErrorList :=
  thrown "API_AttrNotAllowed" ("It is currently not allowed to write attribute " ++
    ((dev.conf a).map AttrConf.name).getD "" ++ ". The device state is " ++ dev.stateName) origin

/-- What the loop over the write methods does with one element: the errors to report. -/
def DeviceImpl.writeOne (dev : DeviceImpl α) (a : AttIdx α) : Option DevErrorList :=
  if dev.isAllowed a.idxInMultiAttr then
    match dev.write a.idxInMultiAttr with
    | .done _ => none
    | .devFailed e => some e
    | .multiDevFailed e => some e
  else some (notAllowed dev a)

/-- The value after a write method that returned. -/
def written (dev : DeviceImpl α) (a : AttIdx α) (w : WAttribute α) : WAttribute α :=
  match dev.write a.idxInMultiAttr with
  | .done (some u) => { setValue (dev.isScalar a) u w with lastWrittenValue := u, userSetWriteValue := true }
  | _ => w

def writeLoop (dev : DeviceImpl α) : List (AttIdx α) → Work α → List (AttIdx α) × Work α
  | [],w => ([],w)
  | a::rest,w =>
    let w := w.upd a.idxInMultiAttr (fun x => { x with userSetWriteValue := false })
    let w := if dev.isAllowed a.idxInMultiAttr then w.note (.written a.idxInNames) else w
    match dev.writeOne a with
    | none =>
      let r := writeLoop dev rest (w.upd a.idxInMultiAttr (written dev a))
      (a :: r.1,r.2)
    | some e =>
      writeLoop dev rest ((w.upd a.idxInMultiAttr (rollback (dev.isScalar a))).fail
        a.value.name a.idxInNames e)

def DeviceImpl.attName (dev : DeviceImpl α) (a : AttIdx α) : String := ((dev.conf a).map AttrConf.name).getD ""

/-- The errors of a `MultiDevFailed`, each for the element with its name, which is erased;
erasing the end of the vector has no meaning. -/
def multiLoop (dev : DeviceImpl α) : List (String × DevErrorList) → List (AttIdx α) → Work α →
    Option (List (AttIdx α) × Work α)
  | [],updated,w => some (updated,w)
  | (name,e)::es,updated,w =>
    match updated.find? (fun a => lowerName (dev.attName a) = lowerName name) with
    | none => none
    | some a =>
      multiLoop dev es (updated.eraseP (fun a => lowerName (dev.attName a) = lowerName name))
        ((w.upd a.idxInMultiAttr (rollback (dev.isScalar a))).fail name a.idxInNames e)

/-- A `DevFailed` of `write_attr_hardware` counts for every element it was called for. -/
def failAll (dev : DeviceImpl α) (e : DevErrorList) : List (AttIdx α) → Work α → Work α
  | [],w => w
  | a::rest,w => failAll dev e rest
      ((w.upd a.idxInMultiAttr (rollback (dev.isScalar a))).fail (dev.attName a) a.idxInNames e)

def hardware (dev : DeviceImpl α) (updated : List (AttIdx α)) (w : Work α) :
    Option (List (AttIdx α) × Work α) :=
  if 4 ≤ dev.idlVersion then
    match dev.writeAttrHardware (updated.map AttIdx.idxInMultiAttr) with
    | .done => some (updated,w)
    | .devFailed e => some ([],failAll dev e updated w)
    | .multiDevFailed es => multiLoop dev es updated w
  else some (updated,w)

def copyData (a : AttIdx α) (w : WAttribute α) : WAttribute α :=
  if w.userSetWriteValue then w else { w with lastWrittenValue := a.value.seq }

def copyLoop : List (AttIdx α) → Work α → Work α
  | [],w => w
  | a::rest,w => copyLoop rest (w.upd a.idxInMultiAttr (copyData a))

def DeviceImpl.isMemorized (dev : DeviceImpl α) (a : AttIdx α) : Bool :=
  match dev.conf a with
  | some att => att.memorized
  | none => false

/-- The memorized values go to the database; an error counts for all of them. -/
def memorize (dev : DeviceImpl α) (updated : List (AttIdx α)) (w : Work α) : Work α :=
  let attInDb := updated.filter dev.isMemorized
  if dev.useDb ∧ attInDb ≠ [] then
    match dev.writeAttributesInDb (attInDb.map AttIdx.idxInMultiAttr) with
    | none => w
    | some e => { w with errs := w.errs ++ attInDb.map (fun a => ⟨a.value.name,a.idxInNames,e⟩) }
  else w

/-- There is no result when the code leaves what it may do. -/
def writeAttributes34 (dev : DeviceImpl α) (wattrs : Nat → WAttribute α)
    (values : List (AttributeValue α)) : Option (Work α) :=
  let sel := selectAll dev 0 values
  match checkLoop dev [] sel.1 ⟨wattrs,sel.2,[]⟩ with
  | none => none
  | some (updated,w) =>
    let r := if w.errs.length ≠ values.length then
        let l := writeLoop dev updated w
        hardware dev l.1 l.2
      else some (updated,w)
    r.map (fun (updated,w) => memorize dev updated (copyLoop updated w))

end CppTango.Device.Write
