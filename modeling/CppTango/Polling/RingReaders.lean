import CppTango.Polling.AttrHistory

namespace CppTango.Polling
open Lib

/-- Why a reader of the ring does not return. -/
inductive Stop
  | fault (f : Fault)
  | devFailed (errs : DevErrorList)
deriving DecidableEq

section Last
variable (r : PollRing)

/-- The index of the slot inserted last. -/
def lastIndex : Nat := if r.insertElt = 0 then r.cells.length - 1 else r.insertElt - 1

theorem lastIndex_lt : lastIndex r < r.cells.length := by
  have hpos := r.depth_pos
  have hlt := r.insert_lt
  unfold lastIndex
  split <;> omega

def lastElt : RingElt := r.cells.get ⟨lastIndex r,lastIndex_lt r⟩

def getLastInsertDate : Nat := (lastElt r).when

def isLastAnError : Bool := (lastElt r).except.isSome

def isLastCmdAnError : Bool := (lastElt r).except.isSome

def getLastExcept : Option DevErrorList := (lastElt r).except

/-- The value the reader is for; the exception is thrown when there is one. -/
def lastValue {α : Type} (member : RingElt → Option α) : Except Stop α :=
  match (lastElt r).except,member (lastElt r) with
  | some errs,_ => .error (.devFailed errs)
  | none,some x => .ok x
  | none,none => .error (.fault .nullPointer)

def getLastCmdResult : Except Stop CmdAny := lastValue r RingElt.cmdResult

def getLastAttrValue : Except Stop AttributeValue := lastValue r RingElt.attrValue

def getLastAttrValue3 : Except Stop AttributeValue := lastValue r RingElt.attrValue3

def getLastAttrValue4 : Except Stop AttributeValue := lastValue r RingElt.attrValue4

def getLastAttrValue5 : Except Stop AttributeValue := lastValue r RingElt.attrValue5

/-- The pointer that is taken when the version is not known: the first one that is set. -/
def RingElt.anyAttrVal (e : RingElt) : Except Fault AttributeValue :=
  match e.attrValue3,e.attrValue4,e.attrValue5 with
  | some v,_,_ => .ok v
  | none,some v,_ => .ok v
  | none,none,some v => .ok v
  | none,none,none => .error .nullPointer

def isLastAttrAnError : Except Fault Bool :=
  match (lastElt r).except with
  | some _ => .ok true
  | none => do
    let v ← (lastElt r).anyAttrVal
    pure (v.errList ≠ [])

end Last

section DeltaT

def notEnoughData : DevError where
  reason := "API_PollRingBufferEmpty"
  severity := .err
  desc := "Not enough data stored yet in polling ring buffer"
  origin := "PollRing::get_delta_t"

def dateAt (cells : List RingElt) (index : Nat) : Int := (cells.getD index {}).when

/-- Both indexes walk back on their own. -/
def deltaLoop (cells : List RingElt) : Nat → Nat → Nat → List Int
  | _,_,0 => []
  | readIndex,prevRead,nb+1 =>
    (dateAt cells readIndex - dateAt cells prevRead) ::
      deltaLoop cells (prevIndex cells.length readIndex) (prevIndex cells.length prevRead) nb

def getDeltaT (r : PollRing) (nb : Nat) : Except Stop (List Int) :=
  if r.nbElt < 2 then .error (.devFailed [notEnoughData])
  else
    let readIndex := if r.insertElt = 0 then r.cells.length - 1 else r.insertElt - 1
    let prevRead :=
      if r.insertElt = 0 then readIndex - 1
      else if readIndex = 0 then r.cells.length - 1
      else readIndex - 1
    let nb := if r.nbElt ≤ nb then r.nbElt - 1 else nb
    .ok (deltaLoop r.cells readIndex prevRead nb)

end DeltaT

section History
variable {β : Type}

/-- One entry for each slot, from the newest one back; the sequence is filled from its end. -/
def fillHistory (entry : RingElt → Except Fault β) (r : PollRing) (n : Nat) : Except Fault (List β) := do
  let entries ← (r.recent n).mapM entry
  pure entries.reverse

structure DevCmdHistory where
  time : TimeVal
  cmdFailed : Bool
  value : Option CmdAny
  errors : DevErrorList
deriving DecidableEq

def cmdEntry (e : RingElt) : Except Fault DevCmdHistory :=
  match e.except,e.cmdResult with
  | some errs,_ => .ok ⟨makeTimeVal e.when,true,none,errs⟩
  | none,some any => .ok ⟨makeTimeVal e.when,false,some any,[]⟩
  | none,none => .error .nullPointer

def getCmdHistoryList (r : PollRing) (n : Nat) : Except Fault (List DevCmdHistory) := fillHistory cmdEntry r n

/-- An entry of the histories that keep one value each. The errors stand beside the value in
IDL 2 only, later they are its error list. -/
structure DevAttrHistory3 where
  attrFailed : Bool
  value : AttributeValue
  errors : DevErrorList
deriving DecidableEq

/-- The types for which these readers have a case. -/
def plainKind (type : CmdArgType) : Option SeqKind :=
  if type = .devEncoded ∨ type = .devVoid then none else attrSeqKind type

/-- The data copied for a type; a state read as an attribute is alone from IDL 3 on. -/
def plainValue (ver : ValueList) (type : CmdArgType) (u : AttrValUnion) : Except Fault AttrValUnion :=
  let mismatch : Fault := if ver = .v4 then .badUnionAccess else .extractionFailed
  match plainKind type,u with
  | none,_ => .ok .unionNoData
  | some k,.seq s => if s.kind = k then .ok (.seq s) else .error mismatch
  | some _,.devStateAtt s => if type = .devState ∧ ver ≠ .v2 then .ok (.devStateAtt s) else .error mismatch
  | some _,.unionNoData => .error mismatch

/-- Dimensions and names that are not set are 0 and empty. -/
def noValue (t : Nat) : AttributeValue := ⟨"",.unionNoData,.invalid,makeTimeVal t,.zero,.zero,[]⟩

def attrEntry (ver : ValueList) (type : CmdArgType) (member : RingElt → Option AttributeValue) (e : RingElt) :
    Except Fault DevAttrHistory3 :=
  match e.except,member e with
  | some errs,_ =>
    if ver = .v2 then .ok ⟨true,noValue e.when,errs⟩
    else .ok ⟨true,{ noValue e.when with errList := errs },[]⟩
  | none,some v => do
    let value ← if v.quality ≠ .invalid then plainValue ver type v.value else pure .unionNoData
    let v := { v with time := makeTimeVal e.when, value := value }
    pure ⟨false,if ver = .v2 then { v with wDim := .zero, errList := [] } else v,[]⟩
  | none,none => .error .nullPointer

def getAttrHistoryList (type : CmdArgType) (r : PollRing) (n : Nat) : Except Fault (List DevAttrHistory3) :=
  fillHistory (attrEntry .v2 type RingElt.attrValue) r n

def getAttrHistoryList3 (type : CmdArgType) (r : PollRing) (n : Nat) : Except Fault (List DevAttrHistory3) :=
  fillHistory (attrEntry .v3 type RingElt.attrValue3) r n

def getAttrHistory43 (type : CmdArgType) (r : PollRing) (n : Nat) : Except Fault (List DevAttrHistory3) :=
  fillHistory (attrEntry .v4 type RingElt.attrValue4) r n

end History

section Kinds

/-- What is inserted in a ring, beside exceptions. -/
inductive Kind
  | cmd
  | attr (ver : ValueList)
deriving DecidableEq

@[reducible] def Payload : Kind → Type
  | .cmd => CmdAny
  | .attr _ => AttributeValue

/-- One insertion, with its date. -/
inductive Record (k : Kind)
  | data (x : Payload k) (t : Nat)
  | failed (errs : DevErrorList) (t : Nat)

namespace Record
variable {k : Kind}

def date : Record k → Nat
  | .data _ t => t
  | .failed _ t => t

def errs : Record k → Option DevErrorList
  | .data _ _ => none
  | .failed errs _ => some errs

def payload : Record k → Option (Payload k)
  | .data x _ => some x
  | .failed _ _ => none

/-- What a reader of the value is to do with it: return the value or throw the exception. -/
def answer : Record k → Except Stop (Payload k)
  | .data x _ => .ok x
  | .failed errs _ => .error (.devFailed errs)

end Record

def member : (k : Kind) → RingElt → Option (Payload k)
  | .cmd => RingElt.cmdResult
  | .attr .v2 => RingElt.attrValue
  | .attr .v3 => RingElt.attrValue3
  | .attr .v4 => RingElt.attrValue4
  | .attr .v5 => RingElt.attrValue5

/-- The reader of the last value of a kind. -/
def lastReader : (k : Kind) → PollRing → Except Stop (Payload k)
  | .cmd => getLastCmdResult
  | .attr .v2 => getLastAttrValue
  | .attr .v3 => getLastAttrValue3
  | .attr .v4 => getLastAttrValue4
  | .attr .v5 => getLastAttrValue5

theorem lastReader_eq (k : Kind) (r : PollRing) : lastReader k r = lastValue r (member k) := by
  cases k with
  | cmd => rfl
  | attr ver => cases ver <;> rfl

def insertData : (k : Kind) → Payload k → Nat → RingElt → RingElt
  | .cmd => insertCmdData
  | .attr ver => insertAttrData ver

def insert (k : Kind) : Record k → RingElt → RingElt
  | .data x t => insertData k x t
  | .failed errs t => insertExcept errs t

/-- The ring after these insertions, oldest first. -/
def kindRing (k : Kind) (depth : Nat) (hd : 0 < depth) (log : List (Record k)) : PollRing :=
  Ring.run (insert k) (pollRing depth hd) log

/-- How a slot holds the record inserted last in it. -/
structure Holds {k : Kind} (e : RingElt) (r : Record k) : Prop where
  when : e.when = r.date
  except : e.except = r.errs
  data : ∀ x, r.payload = some x → member k e = some x

theorem insert_holds {k : Kind} (r : Record k) (e : RingElt) : Holds (insert k r e) r := by
  cases r with
  | failed errs t => exact ⟨rfl,rfl,fun x h => by cases h⟩
  | data x t =>
    cases k with
    | cmd => exact ⟨rfl,rfl,fun _ h => h⟩
    | attr ver => cases ver <;> exact ⟨rfl,rfl,fun _ h => h⟩

section Ring
variable {k : Kind} (depth : Nat) (hd : 0 < depth) (log : List (Record k))

theorem kindRing_nbElt : (kindRing k depth hd log).nbElt = min log.length depth := by
  rw [kindRing,Ring.run_nbElt _ rfl]
  simp [pollRing,Ring.make]

theorem kindRing_insertElt : (kindRing k depth hd log).insertElt = log.length % depth := by
  rw [kindRing,Ring.run_insertElt _ rfl]
  simp [pollRing,Ring.make]

theorem kindRing_recent (n : Nat) (hn : n ≤ (kindRing k depth hd log).nbElt) :
    List.Forall₂ Holds ((kindRing k depth hd log).recent n) (log.reverse.take n) := by
  rw [kindRing_nbElt] at hn
  refine Ring.run_recent (P := fun _ => True) (fun _ _ _ => trivial) (fun r e _ => insert_holds r e) _
    (fun _ _ => trivial) log n (by omega) ?_
  simp only [pollRing,Ring.make,List.length_replicate]
  omega

end Ring

end Kinds

end CppTango.Polling
