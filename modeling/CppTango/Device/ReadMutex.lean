import CppTango.Device.ReadDevice
import CppTango.Lib.Handover

namespace CppTango.Device.Read

open CppTango.Lib

inductive AttrSerialModel
  | attrNoSync | attrByKernel | attrByUser
deriving DecidableEq, Repr

/-- An exception of a user's method. -/
inductive Thrown
  | devFailed (errors : DevErrorList)
  /-- one that is not a `DevFailed` -/
  | other
deriving DecidableEq, Repr

def Thrown.errors : Thrown → DevErrorList
  | .devFailed e => e
  | .other => unforeseen

/-- What the mutexes of the attributes depend on besides, by the name of the attribute. -/
structure Serial where
  attrSerialModel : String → AttrSerialModel
  isAllowedThrows : String → Option Thrown

variable {α : Type} (S : Serial) (idl : Nat)

section Passes
variable (att : Attribute α)

/-- What is done with the attribute mutex; a client of IDL 3 is served without. -/
def kernelOps (ops : List (LockOp Nat)) : List (LockOp Nat) :=
  if S.attrSerialModel att.name = .attrByKernel ∧ (idl = 4 ∨ idl = 5) then ops else []

/-- `is_allowed_failed` is set when the attribute is refused, not when `is_allowed` throws. -/
def lockedRead (r : Reading α) : List (LockOp Nat) × (Option DevErrorList × Reading α) :=
  match S.isAllowedThrows att.name with
  | some t => (kernelOps S idl att [.unlock],(some t.errors,r))
  | none =>
    let p := readAtt att r
    if att.isAllowed = false then ([],p)
    else if p.1.isSome then (kernelOps S idl att [.lock,.unlock],p)
    else (kernelOps S idl att [.lock],p)

def lockedRvalue (r : Reading α) : List (LockOp Nat) × (Option DevErrorList × Reading α) :=
  let p := setRvalueAtt att r
  if p.1.isSome ∧ att.writable = .readWithWrite then (kernelOps S idl att [.unlock],p) else ([],p)

/-- An exception on the way to the reply makes the element release a mutex it was not given. -/
def lockedReply (index : Nat) (r : Reading α) : List (LockOp Nat) :=
  let release := if att.writable ≠ .write then kernelOps S idl att [.unlock] else []
  if r.quality ≠ .invalid then
    match r.value with
    | none => release
    | some seq =>
      match addWriteValue att seq with
      | .ok _ =>
        if att.isFwdAtt = true ∨ att.writable ≠ .write then kernelOps S idl att [.give index] else []
      | .error _ => []
  else release

end Passes

section Call
variable (dev : DeviceImpl α)

/-- A run and what was done with the mutexes, each under the index of its attribute. -/
structure Locked (α : Type) where
  run : Run α
  ops : List (Nat × LockOp Nat)

def lockedStep
    (f : Attribute α → Reading α → List (LockOp Nat) × (Option DevErrorList × Reading α))
    (slot : Nat → Nat) (name : Nat → String) (s : Locked α) (a : AttIdx) : Locked α where
  run := attStep dev (fun att r => (f att r).2) slot name s.run a
  ops := s.ops ++
    match dev.attrs[a.idxInMultiAttr]? with
    | none => []
    | some att => (f att (s.run.held a.idxInMultiAttr)).1.map (fun op => (a.idxInMultiAttr,op))

def replyOps (slot : Nat → Nat) (stateIdx statusIdx : Option Nat) (r : Run α) (n : String × Nat) :
    List (Nat × LockOp Nat) :=
  if stateIdx = some n.2 ∨ statusIdx = some n.2 then []
  else if noErr r (slot n.2) then
    match getAttrIndByName dev.names n.1 with
    | .error _ => []
    | .ok ind =>
      match dev.attrs[ind]? with
      | none => []
      | some att => (lockedReply S idl att (slot n.2) (r.held ind)).map (fun op => (ind,op))
  else []

def lockedReplyStep (slot : Nat → Nat) (stateIdx statusIdx : Option Nat) (s : Locked α)
    (n : String × Nat) : Except DevErrorList (Locked α) :=
  (toReplyStep dev idl slot stateIdx statusIdx s.run n).map
    (fun r => ⟨r,s.ops ++ replyOps S idl dev slot stateIdx statusIdx s.run n⟩)

/-- `read_attributes_no_except` with what it does with the mutexes. -/
def readAttributesLocked (names : List String) (secondTry : Bool) (idx : List Nat) (r : Run α) :
    Except DevErrorList (Locked α) :=
  let slot := index secondTry idx
  let ns := names.zipIdx
  let name := fun i => names.getD i ""
  let stateIdx := wantedIdx dev .state ns
  let statusIdx := wantedIdx dev .status ns
  let r := ns.foldl (wantedStep dev slot) r
  match hookErrors dev ns with
  | some e => .error e
  | none =>
    let s := (ns.filterMap (wantedAttr dev)).foldl (lockedStep dev (lockedRead S idl) slot name) ⟨r,[]⟩
    let s := (ns.filterMap (wantedWAttr dev)).foldl (lockedStep dev (lockedRvalue S idl) slot name) s
    let r := computed dev.devState stateIdx name s.run
    let r := computed dev.devStatus statusIdx name r
    ns.foldlM (lockedReplyStep S idl dev slot stateIdx statusIdx) ⟨r,s.ops⟩

end Call

section Erased
variable {S idl} {dev : DeviceImpl α} {slot : Nat → Nat} {name : Nat → String}

theorem erased_loop
    (f : Attribute α → Reading α → List (LockOp Nat) × (Option DevErrorList × Reading α))
    (l : List AttIdx) (s : Locked α) :
    (l.foldl (lockedStep dev f slot name) s).run =
      l.foldl (attStep dev (fun att r => (f att r).2) slot name) s.run := by
  induction l generalizing s with
  | nil => rfl
  | cons a l ih => exact ih _

theorem erased_reply {stateIdx statusIdx : Option Nat} (l : List (String × Nat)) (s : Locked α) :
    (l.foldlM (lockedReplyStep S idl dev slot stateIdx statusIdx) s).map Locked.run =
      l.foldlM (toReplyStep dev idl slot stateIdx statusIdx) s.run := by
  induction l generalizing s with
  | nil => rfl
  | cons n l ih =>
    rw [List.foldlM_cons,List.foldlM_cons,lockedReplyStep]
    cases toReplyStep dev idl slot stateIdx statusIdx s.run n with
    | error e => rfl
    | ok r => exact ih _

theorem lockedRead_erased (h : ∀ t, S.isAllowedThrows t = none) (att : Attribute α) (r : Reading α) :
    (lockedRead S idl att r).2 = readAtt att r := by
  rw [lockedRead,h]
  simp only []
  split
  · rfl
  · split <;> rfl

theorem lockedRvalue_erased (att : Attribute α) (r : Reading α) :
    (lockedRvalue S idl att r).2 = setRvalueAtt att r := by
  rw [lockedRvalue]
  split <;> rfl

/-- Without its mutexes, the call is the one for the device. -/
theorem locked_erased (h : ∀ t, S.isAllowedThrows t = none) (names : List String) (secondTry : Bool)
    (idx : List Nat) (r : Run α) :
    (readAttributesLocked S idl dev names secondTry idx r).map Locked.run =
      readAttributesNoExcept dev idl names secondTry idx r := by
  have hf : (fun (att : Attribute α) r => (lockedRead S idl att r).2) = readAtt := by
    funext att r
    exact lockedRead_erased h att r
  have hg : (fun (att : Attribute α) r => (lockedRvalue S idl att r).2) = setRvalueAtt := by
    funext att r
    exact lockedRvalue_erased att r
  unfold readAttributesLocked readAttributesNoExcept
  cases hh : hookErrors dev names.zipIdx with
  | some e =>
    simp only [hh]
    rfl
  | none =>
    simp only [hh]
    rw [erased_reply,erased_loop,erased_loop,hf,hg]

end Erased

end CppTango.Device.Read
