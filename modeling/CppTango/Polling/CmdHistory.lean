import CppTango.Lib.Slices
import CppTango.Polling.PollRing

namespace CppTango.Polling
open Lib

/-- How the output of a command is gathered: one element or one sequence for each record, or
a sequence of numbers beside one of strings. A `void` command has nothing to gather. -/
inductive CmdForm
  | void | simple | array | strings
deriving DecidableEq, Repr

/-- The cases of the switch in the encoder; the kind of `void` is not used. -/
def cmdForm : CmdArgType → Option (CmdForm × SeqKind)
  | .devVoid => some (.void,.boolean)
  | .devVarCharArray => some (.array,.uchar)
  | .devShort => some (.simple,.short)
  | .devVarShortArray => some (.array,.short)
  | .devLong => some (.simple,.long)
  | .devVarLongArray => some (.array,.long)
  | .devFloat => some (.simple,.float)
  | .devVarFloatArray => some (.array,.float)
  | .devDouble => some (.simple,.double)
  | .devVarDoubleArray => some (.array,.double)
  | .devUShort => some (.simple,.ushort)
  | .devVarUShortArray => some (.array,.ushort)
  | .devULong => some (.simple,.ulong)
  | .devVarULongArray => some (.array,.ulong)
  | .devString => some (.simple,.string)
  | .devVarStringArray => some (.array,.string)
  | .devBoolean => some (.simple,.boolean)
  | .devVarBooleanArray => some (.array,.boolean)
  | .devLong64 => some (.simple,.long64)
  | .devVarLong64Array => some (.array,.long64)
  | .devULong64 => some (.simple,.ulong64)
  | .devVarULong64Array => some (.array,.ulong64)
  | .devVarLongStringArray => some (.strings,.long)
  | .devVarDoubleStringArray => some (.strings,.double)
  | .devEncoded => some (.simple,.encoded)
  | _ => none

/-- The cases of the switch in the decoder. -/
def histForm : CmdArgType → Option (CmdForm × SeqKind)
  | .devVoid | .devVarBooleanArray => none
  | .devState => some (.simple,.state)
  | type => cmdForm type

/-- Extraction from the `Any` of one record: elements or numbers, and strings. -/
def CmdAny.read (form : CmdForm) (k : SeqKind) (any : CmdAny) :
    Except Fault (List (Elt k) × List String) :=
  match form,any with
  | .void,_ => .error .typeNotSupported
  | .simple,.scalar k' x => if h : k' = k then .ok ([h ▸ x],[]) else .error .extractionFailed
  | .array,.array s => if h : s.kind = k then .ok (h ▸ s.elts,[]) else .error .extractionFailed
  | .strings,.strings nums svalue =>
    if h : nums.kind = k then .ok (h ▸ nums.elts,svalue) else .error .extractionFailed
  | _,_ => .error .extractionFailed

def RingElt.cmdData (form : CmdForm) (k : SeqKind) (e : RingElt) :
    Except Fault (List (Elt k) × List String) :=
  match e.cmdResult with
  | some any => any.read form k
  | none => .error .nullPointer

structure DevCmdHistory4 where
  dates : List TimeVal
  value : Option CmdAny
  dims : RunTable AttributeDim
  errors : RunTable DevErrorList
  cmdType : CmdArgType
deriving DecidableEq

structure CmdHistState (k : SeqKind) where
  dates : List TimeVal := []
  errors : RunTable DevErrorList := .empty
  lastErrList : DevErrorList := []
  dims : RunTable AttributeDim := .empty
  lastDim : Int × Int := (-1,-1)
  noData : Bool := true
  nums : Option (List (Elt k)) := none
  indNum : Nat := 0
  strs : Option (List String) := none
  indStr : Nat := 0

/-- `MANAGE_DIM_ARRAY`, and with length 1 `MANAGE_DIM_SIMPLE`: the second dimension is not
compared. -/
def noteLength (t : RunTable AttributeDim) (last : Int × Int) (length : Nat) (start : Nat) :
    Except Fault (RunTable AttributeDim) :=
  if last.1 = length then growLast t else .ok (t.push ⟨length,0⟩ start)

/-- Number of elements, or of numbers and of strings, one record adds to the sequence. Simple
types are counted without extracting them. -/
def cmdEltSize (form : CmdForm) (k : SeqKind) (e : RingElt) : Except Fault (Nat × Nat) :=
  match e.except,form with
  | some _,_ => .ok (0,0)
  | none,.void | none,.simple => .ok (1,0)
  | none,_ => do
    let data ← e.cmdData form k
    pure (data.1.length,data.2.length)

def cmdSeqSize (form : CmdForm) (k : SeqKind) : List RingElt → Except Fault (Nat × Nat)
  | [] => .ok (0,0)
  | e::es => do
    let size ← cmdEltSize form k e
    let rest ← cmdSeqSize form k es
    pure (size.1 + rest.1,size.2 + rest.2)

section Encode
variable {k : SeqKind} (form : CmdForm) (size : Nat × Nat) (fill : Elt k)

/-- The data of one record, copied into sequences created at their first use. -/
def addCmdData (start : Nat) (e : RingElt) (s : CmdHistState k) :
    Except Fault (CmdHistState k) := do
  let data ← e.cmdData form k
  let nums ← orFault .outOfBounds
    (blit (s.nums.getD (List.replicate size.1 fill)) s.indNum data.1)
  match form with
  | .strings =>
    let strs ← orFault .outOfBounds (blit (s.strs.getD (List.replicate size.2 "")) s.indStr data.2)
    let dims ← noteDim s.dims s.lastDim ⟨data.2.length,data.1.length⟩ start
    pure { s with
      nums := some nums
      indNum := s.indNum + data.1.length
      strs := some strs
      indStr := s.indStr + data.2.length
      dims := dims
      lastDim := (data.2.length,data.1.length) }
  | _ =>
    let dims ← noteLength s.dims s.lastDim data.1.length start
    pure { s with
      nums := some nums
      indNum := s.indNum + data.1.length
      dims := dims
      lastDim := (data.1.length,if s.lastDim.1 = data.1.length then s.lastDim.2 else 0) }

def addCmdExcept (start : Nat) (errs : DevErrorList) (s : CmdHistState k) :
    Except Fault (CmdHistState k) := do
  let errors ← noteErrors s.errors s.noData s.lastErrList errs start
  let dims ← noteDim s.dims s.lastDim .zero start
  pure { s with errors := errors, lastErrList := errs, dims := dims, lastDim := (0,0) }

def addCmdElt (start : Nat) (e : RingElt) (s : CmdHistState k) : Except Fault (CmdHistState k) := do
  let s := { s with dates := makeTimeVal e.when :: s.dates }
  match e.except with
  | some errs =>
    let s ← addCmdExcept start errs s
    pure { s with noData := true }
  | none =>
    let s ← addCmdData form size fill start e s
    pure { s with noData := false }

def addCmdElts : List RingElt → CmdHistState k → Except Fault (CmdHistState k)
  | [],s => .ok s
  | e::es,s => do
    let s ← addCmdElt form size fill es.length e s
    addCmdElts es s

end Encode

/-- The switch that moves the sequence into the `Any`. For the unsigned types it looks at the
sequence of doubles, which none of them creates. -/
def cmdValue (type : CmdArgType) (form : CmdForm) (s : CmdHistState k) : Option CmdAny :=
  match type with
  | .devVarUShortArray | .devUShort | .devVarULongArray | .devULong => none
  | _ =>
    match form with
    | .strings => s.nums.map (fun nums => .strings ⟨k,nums⟩ (s.strs.getD []))
    | _ => s.nums.map (fun nums => .array ⟨k,nums⟩)

/-- `fill` is what the elements of a newly sized sequence hold before they are set. -/
def getCmdHistory (fill : (k : SeqKind) → Elt k) (type : CmdArgType) (ring : PollRing) (n : Nat) :
    Except Fault DevCmdHistory4 :=
  match cmdForm type with
  | none => .error .typeNotSupported
  | some (form,k) => do
    let size ← cmdSeqSize form k (ring.recent n)
    let s ← addCmdElts form size (fill k) (ring.recent n) ({} : CmdHistState k)
    pure {
      dates := s.dates
      value := cmdValue type form s
      dims := s.dims
      errors := s.errors
      cmdType := type }

structure DeviceDataHistory where
  time : TimeVal
  fail : Bool := false
  errList : DevErrorList := []
  any : Option CmdAny := none
deriving DecidableEq

/-- A scalar is the element before `base`, an array the elements from `base - length` on. -/
def createAny (form : CmdForm) (k : SeqKind) (tmp : List (Elt k)) (base length : Nat) :
    Option CmdAny :=
  match form with
  | .array =>
    if length ≤ base then some (.array ⟨k,(tmp.drop (base - length)).take length⟩) else none
  | _ => if 1 ≤ base then (tmp[base-1]?).map (.scalar k) else none

section Extract
variable (form : CmdForm) (k : SeqKind) (tmp : List (Elt k)) (svalue : List String)
  (ad : List AttributeDim)

def extractSeq : Nat → Nat → List DeviceDataHistory → Option (List DeviceDataHistory)
  | _,_,[] => some []
  | loop,base,hist::ddh => do
    let dim ← ad[loop]?
    if hist.fail then
      let rest ← extractSeq (loop+1) base ddh
      pure (hist :: rest)
    else
      let any ← createAny form k tmp base dim.dimX
      let rest ← extractSeq (loop+1) (base - dim.dimX) ddh
      pure ({ hist with any := some any } :: rest)

/-- Here `loop` is advanced for the records that did not fail only. -/
def extractStrings : Nat → Nat → Nat → List DeviceDataHistory → Option (List DeviceDataHistory)
  | _,_,_,[] => some []
  | loop,baseStr,baseNum,hist::ddh =>
    if hist.fail then do
      let rest ← extractStrings loop baseStr baseNum ddh
      pure (hist :: rest)
    else do
      let dim ← ad[loop]?
      if dim.dimX ≤ baseStr ∧ dim.dimY ≤ baseNum then
        let strs := (svalue.drop (baseStr - dim.dimX)).take dim.dimX
        let nums := (tmp.drop (baseNum - dim.dimY)).take dim.dimY
        let rest ← extractStrings (loop+1) (baseStr - dim.dimX) (baseNum - dim.dimY) ddh
        pure ({ hist with any := some (.strings ⟨k,nums⟩ strs) } :: rest)
      else none

end Extract

/-- An empty `Any`, or one of another type, leaves the pointer unset. -/
def extractCmdValue (type : CmdArgType) (value : Option CmdAny) (ad : List AttributeDim)
    (ddh : List DeviceDataHistory) : Except Fault (List DeviceDataHistory) :=
  match histForm type with
  | none => .ok ddh
  | some (.strings,k) =>
    match value with
    | some (.strings nums svalue) =>
      if h : nums.kind = k then
        let tmp : List (Elt k) := h ▸ nums.elts
        orFault .outOfBounds (extractStrings k tmp svalue ad 0 svalue.length tmp.length ddh)
      else .error .extractionFailed
    | _ => .error .extractionFailed
  | some (form,k) =>
    match value with
    | some (.array s) =>
      if h : s.kind = k then
        let tmp : List (Elt k) := h ▸ s.elts
        orFault .outOfBounds (extractSeq form k tmp ad 0 tmp.length ddh)
      else .error .extractionFailed
    | _ => .error .extractionFailed

def setDataFailed (errs : DevErrorList) (h : DeviceDataHistory) : DeviceDataHistory :=
  { h with fail := true, errList := errs }

/-- The dimensions are first spread over a list with one entry for each record. -/
def fromHist4DataHistory (hist : DevCmdHistory4) : Except Fault (List DeviceDataHistory) := do
  if hist.dims.vals.length ≠ hist.dims.spans.length ∨
      hist.errors.vals.length ≠ hist.errors.spans.length then
    .error .wrongHistoryDataBuffer
  else
    let ddh := hist.dates.map (fun t => ({ time := t } : DeviceDataHistory))
    let ddh ← orFault .outOfBounds (spread setDataFailed hist.errors.rows ddh)
    let ad ← orFault .outOfBounds
      (spread (fun d _ => d) hist.dims.rows (hist.dates.map (fun _ => AttributeDim.zero)))
    extractCmdValue hist.cmdType hist.value ad ddh

end CppTango.Polling
