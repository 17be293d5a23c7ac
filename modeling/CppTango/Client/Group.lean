import CppTango.Device.MultiAttribute
import CppTango.Lib.Trees
import CppTango.Lib.Text

namespace CppTango.Client.Group
open CppTango.Device (lowerName)

/-- A group or a device of the hierarchy; a device has no list of elements. -/
structure GroupElement where
  name : String
  parent : Option Nat
  elements : Option (List Nat)
deriving DecidableEq, Repr

/-- The elements that exist, by their address. -/
structure Heap where
  cells : Nat → Option GroupElement
  next : Nat

def Heap.name (h : Heap) (i : Nat) : String := ((h.cells i).map (·.name)).getD ""

def Heap.parent (h : Heap) (i : Nat) : Option Nat := (h.cells i).bind (·.parent)

def Heap.elements (h : Heap) (i : Nat) : List Nat := ((h.cells i).bind (·.elements)).getD []

def Heap.isGroup (h : Heap) (i : Nat) : Bool := ((h.cells i).bind (·.elements)).isSome

/-- Groups that are not attached yet. -/
def start (names : List String) : Heap where
  cells i := (names[i]?).map (fun name => ⟨name,none,some []⟩)
  next := names.length

/-- No walk through the hierarchy is longer, unless it goes round. -/
def Heap.fuel (h : Heap) : Nat := h.next + 1

section Names

/-- `get_fully_qualified_name`; `none` when the parents go round. -/
def qualifiedName (h : Heap) : Nat → Nat → Option (List Char)
  | 0,_ => none
  | f+1,i =>
    match h.parent i with
    | none => some (h.name i).toList
    | some p => (qualifiedName h f p).map (· ++ '.' :: (h.name i).toList)

def getFullyQualifiedName (h : Heap) (i : Nat) : Option (List Char) := qualifiedName h h.fuel i

def nameEquals (h : Heap) (n : String) (i : Nat) : Option Bool :=
  (getFullyQualifiedName h i).map (fun fqn =>
    lowerName n = lowerName (h.name i) || lowerName n = fqn.map Char.toLower)

/-- The parts between the stars; an empty one in front or at the end is left out. -/
def tokenize (p : String) : List (List Char) :=
  let parts := p.toList.splitOn '*'
  let parts := if parts.head? = some [] then parts.tail else parts
  if parts.getLast? = some [] then parts.dropLast else parts

/-- The loop of `match_i` over text in lower case: a token is searched from where the last one
starts. -/
def matchTokens (p : List Char) : Nat → List (List Char) → Bool
  | _,[] => true
  | pos,t :: tokens =>
    match Lib.find (t.map Char.toLower) (p.drop pos) with
    | none => false
    | some i => matchTokens p (pos + i) tokens

def nameMatches (h : Heap) (n : String) (i : Nat) : Option Bool :=
  (getFullyQualifiedName h i).map (fun fqn =>
    matchTokens (lowerName (h.name i)) 0 (tokenize n) ||
      matchTokens (fqn.map Char.toLower) 0 (tokenize n))

def isPattern (n : String) : Bool := n.toList.contains '*'

/-- A name or a pattern is looked for. -/
def suits (h : Heap) (n : String) (i : Nat) : Option Bool :=
  if isPattern n then nameMatches h n i else nameEquals h n i

end Names

section Searches

/-- `find_i` of a group, and of a device. -/
def find (h : Heap) (n : String) : Nat → Bool → Nat → Option (Option Nat)
  | 0,_,_ => none
  | f+1,fwd,i =>
    if h.isGroup i then
      (suits h n i).bind (fun own =>
        if own then some (some i)
        else (Lib.firstThat (suits h n) (h.elements i)).bind (fun r =>
          match r with
          | some e => some (some e)
          | none =>
            if fwd then Lib.firstAnswer (find h n f true) (h.elements i) else some none))
    else (nameEquals h n i).map (fun own => if own then some i else none)

def findI (h : Heap) (i : Nat) (n : String) (fwd : Bool) : Option (Option Nat) :=
  find h n h.fuel fwd i

def getGroupI (h : Heap) (i : Nat) (n : String) : Option (Option Nat) :=
  (findI h i n true).map (·.filter h.isGroup)

def deviceList (h : Heap) : Nat → Bool → Nat → Option (List String)
  | 0,_,_ => none
  | f+1,fwd,i =>
    Lib.gather (fun e =>
      if h.isGroup e then if fwd then deviceList h f fwd e else some []
      else some [h.name e]) (h.elements i)

def getDeviceList (h : Heap) (i : Nat) (fwd : Bool) : Option (List String) :=
  deviceList h h.fuel fwd i

/-- What is deleted with an element: all that is under it. -/
def subtree (h : Heap) : Nat → Nat → Option (List Nat)
  | 0,_ => none
  | f+1,i => (Lib.gather (subtree h f) (h.elements i)).map (i :: ·)

end Searches

section Updates

def Heap.set (h : Heap) (i : Nat) (e : GroupElement) : Heap :=
  { h with cells := Function.update h.cells i (some e) }

def Heap.setElements (h : Heap) (i : Nat) (l : List Nat) : Heap :=
  match h.cells i with
  | none => h
  | some e => h.set i { e with elements := some l }

def Heap.setParent (h : Heap) (i : Nat) (p : Nat) : Heap :=
  match h.cells i with
  | none => h
  | some e => h.set i { e with parent := some p }

/-- `delete` of an element, and of all under it. -/
def Heap.delete (h : Heap) (i : Nat) : Option Heap :=
  (subtree h h.fuel i).map (fun l =>
    { h with cells := fun j => if l.contains j then none else h.cells j })

/-- `add_i`: the element is attached when its name is not known yet. -/
def addI (h : Heap) (this e : Nat) (fwd : Bool) : Option (Bool × Heap) :=
  if e = this then some (false,h)
  else
    (findI h this (h.name e) fwd).map (fun te =>
      if te.isSome ∧ te ≠ some this then (false,h)
      else (true,(h.setElements this (h.elements this ++ [e])).setParent e this))

/-- `add` of a group; `none` is the null pointer. -/
def addGroup (h : Heap) (this : Nat) (g : Option Nat) : Option Heap :=
  match g with
  | none => some h
  | some g =>
    (getGroupI h this (h.name g)).bind (fun known =>
      if known = some g then some h
      else (getGroupI h g (h.name this)).bind (fun known =>
        if known = some this then some h else (addI h this g false).map (·.2)))

/-- A new element for a device. -/
def Heap.alloc (h : Heap) (name : String) : Heap where
  cells := Function.update h.cells h.next (some ⟨name,none,none⟩)
  next := h.next + 1

/-- The new element is deleted again when it is not attached. -/
def addOne (h : Heap) (this : Nat) (name : String) : Option Heap :=
  let e := h.next
  (addI (h.alloc name) this e true).map (fun r =>
    if r.1 then r.2 else { r.2 with cells := Function.update r.2.cells e none })

/-- Names of devices have no star. -/
def DeviceName : Type := { n : String // isPattern n = false }

/-- `add` of the devices that a name or a pattern stands for. -/
def addDevices (h : Heap) (this : Nat) (names : List DeviceName) : Option Heap :=
  names.foldlM (fun h n => addOne h this n.1) h

/-- An element is deleted and taken out of the list. -/
def removeOne (h : Heap) (this e : Nat) : Option Heap :=
  if (h.elements this).contains e then
    (h.delete e).map (fun h => h.setElements this ((h.elements this).erase e))
  else some h

def removeList (h : Heap) (this : Nat) (l : List Nat) : Option Heap :=
  l.foldlM (fun h e => removeOne h this e) h

/-- The elements whose name matches a pattern. -/
def matching (h : Heap) (p : String) (l : List Nat) : Option (List Nat) :=
  Lib.gather (fun e => (nameMatches h p e).map (fun b => if b then [e] else [])) l

/-- The elements of one group, without its sub-groups. -/
def removeHere (h : Heap) (this : Nat) (p : String) : Option Heap :=
  if isPattern p then (matching h p (h.elements this)).bind (removeList h this)
  else
    (Lib.firstThat (nameEquals h p) (h.elements this)).bind (fun r =>
      match r with
      | none => some h
      | some e => removeOne h this e)

/-- `remove_i`, and its loop over the sub-groups. -/
def removeI (p : String) (fwd : Bool) : Nat → Heap → Nat → Option Heap
  | 0,_,_ => none
  | f+1,h,this =>
    (nameEquals h p this).bind (fun own =>
      if own then some h
      else (removeHere h this p).bind (fun h =>
        if fwd then
          (h.elements this).foldlM (fun h e => if h.isGroup e then removeI p fwd f h e else some h) h
        else some h))

def remove (h : Heap) (this : Nat) (p : String) (fwd : Bool) : Option Heap :=
  removeI p fwd h.fuel h this

def removeAll (h : Heap) (this : Nat) : Option Heap := removeList h this (h.elements this)

end Updates

end CppTango.Client.Group
