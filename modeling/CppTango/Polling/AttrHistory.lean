import CppTango.Lib.Slices
import CppTango.Polling.PollRing

namespace CppTango.Polling
open Lib

/-- Number of elements of a value with these read and write dimensions. -/
def dataLength (r w : AttributeDim) : Nat :=
  (if r.dimY = 0 then r.dimX else r.dimX * r.dimY) +
    (if w.dimY = 0 then w.dimX else w.dimX * w.dimY)

/-- The structure sent to the client, one run-length table for each pair of sequences. -/
structure DevAttrHistory where
  name : String
  dates : List TimeVal
  value : Option Seq
  quals : RunTable AttrQuality
  rDims : RunTable AttributeDim
  wDims : RunTable AttributeDim
  errors : RunTable DevErrorList
deriving DecidableEq

/-- Sequence in which values of an attribute data type are gathered. `devVoid` is the
state read as an attribute. -/
def attrSeqKind : CmdArgType → Option SeqKind
  | .devShort | .devEnum => some .short
  | .devDouble => some .double
  | .devLong => some .long
  | .devLong64 => some .long64
  | .devString => some .string
  | .devFloat => some .float
  | .devBoolean => some .boolean
  | .devUShort => some .ushort
  | .devUChar => some .uchar
  | .devULong => some .ulong
  | .devULong64 => some .ulong64
  | .devState => some .state
  | .devVoid => some .state
  | .devEncoded => some .encoded
  | _ => none

def Seq.cast? (s : Seq) (k : SeqKind) : Except Fault (List (Elt k)) :=
  if h : s.kind = k then .ok (h ▸ s.elts) else .error .badUnionAccess

/-- The data of one record, read through the accessor its type selects. -/
def unionData (type : CmdArgType) (k : SeqKind) (u : AttrValUnion) :
    Except Fault (List (Elt k)) :=
  match type,u with
  | .devVoid,.devStateAtt s => Seq.cast? ⟨.state,[s]⟩ k
  | .devVoid,_ => .error .badUnionAccess
  | _,.seq s => Seq.cast? s k
  | _,_ => .error .badUnionAccess

structure AttrHistState (k : SeqKind) where
  dates : List TimeVal := []
  quals : RunTable AttrQuality := .empty
  lastQuality : AttrQuality := .valid
  rDims : RunTable AttributeDim := .empty
  lastDimRead : Int × Int := (-1,-1)
  wDims : RunTable AttributeDim := .empty
  lastDimWrite : Int × Int := (-1,-1)
  /-- sized to the number of failed records in the source and cut at the end -/
  errors : RunTable DevErrorList := .empty
  lastErrList : DevErrorList := []
  noData : Bool := true
  newTmp : Option (List (Elt k)) := none
  indInSeq : Nat := 0

/-- `ADD_ELT_DATA_TO_GLOBAL_SEQ`, on a sequence created at its first use. -/
def addData (seqSize : Nat) (fill : Elt k) (s : AttrHistState k) (xs : List (Elt k)) :
    Except Fault (AttrHistState k) :=
  match blit (s.newTmp.getD (List.replicate seqSize fill)) s.indInSeq xs with
  | some buf => .ok { s with newTmp := some buf, indInSeq := s.indInSeq + xs.length }
  | none => .error .outOfBounds

def addValue (type : CmdArgType) (seqSize : Nat) (fill : Elt k) (start : Nat)
    (v : AttributeValue) (s : AttrHistState k) : Except Fault (AttrHistState k) := do
  let quals ← noteQuality s.quals s.lastQuality v.quality start
  let rDims ← noteDim s.rDims s.lastDimRead v.rDim start
  let wDims ← noteDim s.wDims s.lastDimWrite v.wDim start
  let s := { s with
    dates := ⟨v.time.tvSec,v.time.tvUsec,0⟩ :: s.dates
    quals := quals
    lastQuality := v.quality
    rDims := rDims
    lastDimRead := AttributeDim.pair v.rDim
    wDims := wDims
    lastDimWrite := AttributeDim.pair v.wDim
    noData := v.quality = .invalid }
  if v.quality = .invalid then pure s
  else
    let xs ← unionData type k v.value
    addData seqSize fill s xs

def addExcept (start : Nat) (errs : DevErrorList) (when : Nat) (s : AttrHistState k) :
    Except Fault (AttrHistState k) := do
  let errors ← noteErrors s.errors s.noData s.lastErrList errs start
  -- a failed record is entered as invalid, with both dimensions 0
  let quals ← noteQuality s.quals s.lastQuality .invalid start
  let rDims ← noteDim s.rDims s.lastDimRead .zero start
  let wDims ← noteDim s.wDims s.lastDimWrite .zero start
  pure { s with
    dates := { makeTimeVal when with tvNsec := 0 } :: s.dates
    quals := quals
    lastQuality := .invalid
    rDims := rDims
    lastDimRead := (0,0)
    wDims := wDims
    lastDimWrite := (0,0)
    errors := errors
    lastErrList := errs
    noData := true }

def RingElt.attrVal (idl5 : Bool) (e : RingElt) : Except Fault AttributeValue :=
  match if idl5 then e.attrValue5 else e.attrValue4 with
  | some v => .ok v
  | none => .error .nullPointer

/-- Size of the global sequence; every record that is not an exception counts. -/
def seqSize (idl5 : Bool) : List RingElt → Except Fault Nat
  | [] => .ok 0
  | e::es =>
    match e.except with
    | some _ => seqSize idl5 es
    | none => do
      let v ← e.attrVal idl5
      let rest ← seqSize idl5 es
      pure (dataLength v.rDim v.wDim + rest)

def addElt (type : CmdArgType) (idl5 : Bool) (seqSize : Nat) (fill : Elt k) (start : Nat)
    (e : RingElt) (s : AttrHistState k) : Except Fault (AttrHistState k) :=
  match e.except with
  | some errs => addExcept start errs e.when s
  | none => do
    let v ← e.attrVal idl5
    addValue type seqSize fill start v s

/-- The main loop over the slots, newest first; `n` is the number of slots to go. -/
def addElts (type : CmdArgType) (idl5 : Bool) (seqSize : Nat) (fill : Elt k) :
    List RingElt → AttrHistState k → Except Fault (AttrHistState k)
  | [],s => .ok s
  | e::es,s => do
    let s ← addElt type idl5 seqSize fill es.length e s
    addElts type idl5 seqSize fill es s

/-- `fill` is what the elements of a newly sized sequence hold before they are set. -/
def getAttrHistory (type : CmdArgType) (k : SeqKind) (fill : Elt k) (name : String)
    (ring : PollRing) (n : Nat) : Except Fault DevAttrHistory := do
  let es := ring.recent n
  -- the version is read off the newest slot, whatever that slot holds
  let idl5 := (es.head?.bind RingElt.attrValue4).isNone
  let size ← seqSize idl5 es
  let s ← addElts type idl5 size fill es ({} : AttrHistState k)
  pure {
    name := name
    dates := s.dates
    value := s.newTmp.map (Seq.mk k)
    quals := s.quals
    rDims := s.rDims
    wDims := s.wDims
    errors := s.errors }

structure DeviceAttributeHistory where
  name : String := "Name not set"
  time : TimeVal := ⟨0,0,0⟩
  quality : AttrQuality := .invalid
  rDim : AttributeDim := .zero
  wDim : AttributeDim := .zero
  fail : Bool := false
  errList : DevErrorList := []
  seq : Option Seq := none
deriving DecidableEq

/-- Length of the slice a record takes; nothing for a failed or invalid one. -/
def histLength (h : DeviceAttributeHistory) : Option Nat :=
  if h.fail ∨ h.quality = .invalid then none else some (dataLength h.rDim h.wDim)

def putSeq (k : SeqKind) (xs : List (Elt k)) (h : DeviceAttributeHistory) :
    DeviceAttributeHistory :=
  { h with seq := some ⟨k,xs⟩ }

def extractValue (s : Seq) (ddh : List DeviceAttributeHistory) :
    Except Fault (List DeviceAttributeHistory) :=
  orFault .outOfBounds (unstack histLength (putSeq s.kind) s.elts s.elts.length ddh)

def setFailed (errs : DevErrorList) (h : DeviceAttributeHistory) : DeviceAttributeHistory :=
  { h with fail := true, errList := errs }

def fromHist2AttHistory (hist : DevAttrHistory) : Except Fault (List DeviceAttributeHistory) := do
  if hist.quals.vals.length ≠ hist.quals.spans.length ∨
      hist.rDims.vals.length ≠ hist.rDims.spans.length ∨
      hist.wDims.vals.length ≠ hist.wDims.spans.length ∨
      hist.errors.vals.length ≠ hist.errors.spans.length then
    .error .wrongHistoryDataBuffer
  else
    let ddh := hist.dates.map (fun t => { time := t, name := hist.name })
    let ddh ← orFault .outOfBounds
      (spread (fun q h => { h with quality := q }) hist.quals.rows ddh)
    let ddh ← orFault .outOfBounds (spread (fun d h => { h with rDim := d }) hist.rDims.rows ddh)
    let ddh ← orFault .outOfBounds (spread (fun d h => { h with wDim := d }) hist.wDims.rows ddh)
    let ddh ← orFault .outOfBounds (spread setFailed hist.errors.rows ddh)
    match hist.value with
    | none => pure ddh
    | some s => extractValue s ddh

end CppTango.Polling
