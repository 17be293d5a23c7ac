import CppTango.Device.MultiAttribute
import CppTango.Lib.Memory

namespace CppTango.Device.Dynamic

open CppTango.Lib

/-- An attribute as the class describes it. -/
structure Attr where
  name : String
  clName : String
  dataType : Nat
  dataFormat : AttrDataFormat
  writable : AttrWriteType
  assocName : String
deriving DecidableEq, Repr

/-- The associated attribute; a READ_WRITE attribute is its own. -/
def Attr.assoc (a : Attr) : String := if a.writable = .readWrite then a.name else a.assocName

/-- What does not change of a device attribute. `ptr` is the object itself. -/
structure AttrDef where
  ptr : Nat
  name : String
  dataType : Nat
  dataFormat : AttrDataFormat
  writable : AttrWriteType
  assocName : String
  alarmed : Bool
deriving DecidableEq, Repr

structure Attribute extends AttrDef where
  attrIdx : Int
  assocInd : Option Int
deriving DecidableEq, Repr

structure MapElement where
  attPtr : Nat
  attIndexInVector : Int
deriving DecidableEq, Repr

/-- A device's `MultiAttribute`. -/
structure MultiAttr where
  devName : String
  attrList : List Attribute
  writableAttrList : List Int
  alarmAttrList : List Int
  attrMap : List Char → Option MapElement

def AttrDef.isWritable (a : AttrDef) : Bool := a.writable = .write || a.writable = .readWrite

def AttrDef.isAlarmed (a : AttrDef) : Bool := a.alarmed && a.writable ≠ .write

/-- The types that have an associated attribute. -/
def AttrDef.hasAssoc (a : AttrDef) : Bool := a.writable = .readWithWrite || a.writable = .readWrite

section MultiAttribute

def MultiAttr.defs (m : MultiAttr) : List AttrDef := m.attrList.map Attribute.toAttrDef

def MultiAttr.at (m : MultiAttr) (ind : Int) : Option Attribute :=
  if 0 ≤ ind then m.attrList[ind.toNat]? else none

def notFound (attrName : String) (origin : String) : DevErrorList :=
  thrown "API_AttrNotFound" (attrName ++ " attribute not found") origin

def MultiAttr.getAttrByName (m : MultiAttr) (attrName : String) : Except DevErrorList Attribute :=
  match (m.attrMap (lowerName attrName)).bind (fun e => m.attrList.find? (fun a => a.ptr = e.attPtr)) with
  | some a => .ok a
  | none => .error (notFound attrName "MultiAttribute::get_attr_by_name")

def MultiAttr.getAttrIndByName (m : MultiAttr) (attrName : String) : Except DevErrorList Int :=
  match m.attrMap (lowerName attrName) with
  | some e => .ok e.attIndexInVector
  | none => .error (notFound attrName "MultiAttribute::get_attr_ind_by_name")

def assocError (devName : String) (a : AttrDef) (what : String) : DevErrorList :=
  thrown "API_AttrOptProp" ("Device --> " ++ devName ++ "\nProperty writable_attr_name for attribute " ++
    a.name ++ " is set to " ++ a.assocName ++ what) "MultiAttribute::check_associated"

def setAssocInd (ind : Int) (a : Attribute) : Attribute := { a with assocInd := some ind }

/-- An index out of the vector stands for an access that has no meaning. -/
def MultiAttr.checkAssociated (m : MultiAttr) (index : Nat) (devName : String) :
    Except DevErrorList MultiAttr :=
  match m.attrList[index]? with
  | none => .error []
  | some att =>
    if att.hasAssoc = false then .ok m
    else
      match m.getAttrIndByName att.assocName with
      | .error _ => .error (assocError devName att.toAttrDef ", but this attribute does not exist")
      | .ok assocIndex =>
        match m.at assocIndex with
        | none => .error []
        | some assoc =>
          if assoc.isWritable = false then
            .error (assocError devName att.toAttrDef ", but this attribute is not writable")
          else if att.dataType ≠ assoc.dataType then
            .error (assocError devName att.toAttrDef
              ", but these two attributes do not support the same data type")
          else .ok { m with attrList := m.attrList.modify index (setAssocInd assocIndex) }

/-- The loop over all attributes; it stops at the first exception, with what it has done. -/
def MultiAttr.checkAll (devName : String) : List Nat → MultiAttr → MultiAttr × Option DevErrorList
  | [],m => (m,none)
  | i::is,m =>
    match m.checkAssociated i devName with
    | .error e => (m,some e)
    | .ok m => m.checkAll devName is

def putAttributeInMap (a : AttrDef) (index : Int) (map : List Char → Option MapElement) :
    List Char → Option MapElement :=
  Function.update map (lowerName a.name) (some ⟨a.ptr,index⟩)

/-- `attr_map[name].att_index_in_vector += d`: a name that is not there gets an empty element. -/
def moveIndex (d : Int) (e : Option MapElement) : Option MapElement :=
  let e := e.getD ⟨0,0⟩
  some { e with attIndexInVector := e.attIndexInVector + d }

def moveName (d : Int) (name : List Char) (map : List Char → Option MapElement) :
    List Char → Option MapElement :=
  Function.update map name (moveIndex d (map name))

def incrementStateAndStatusIndexes (map : List Char → Option MapElement) :
    List Char → Option MapElement :=
  moveName 1 (lowerName "Status") (moveName 1 (lowerName "State") map)

def MultiAttr.addAttr (m : MultiAttr) (a : Attribute) : MultiAttr :=
  { m with attrList := m.attrList ++ [a]
           attrMap := putAttributeInMap a.toAttrDef m.attrList.length m.attrMap }

/-- The new attribute in the vector, with its index. -/
def MultiAttr.insertAttr (m : MultiAttr) (a : Attribute) : MultiAttr × Nat :=
  if (m.attrList.getLast?).map (fun a => a.name) = some "Status" then
    let index := m.attrList.length + 1 - 3
    ({ m with attrList := m.attrList.insertIdx (m.attrList.length - 2) a
              attrMap := incrementStateAndStatusIndexes (putAttributeInMap a.toAttrDef index m.attrMap) },
      index)
  else (m.addAttr a,m.attrList.length)

def MultiAttr.noteKinds (m : MultiAttr) (a : AttrDef) (index : Nat) : MultiAttr :=
  { m with
      writableAttrList := if a.isWritable then m.writableAttrList ++ [(index : Int)]
        else m.writableAttrList
      alarmAttrList := if a.isAlarmed then m.alarmAttrList ++ [(index : Int)] else m.alarmAttrList }

end MultiAttribute

section ClassAttribute

/-- `MultiClassAttribute::get_attr`. -/
def getAttr (classList : List Attr) (attrName : String) : Option Attr :=
  classList.find? (fun a => lowerName a.name = lowerName attrName)

def isEntry (attrName clName : String) (a : Attr) : Bool :=
  lowerName a.name = lowerName attrName && a.clName = clName

def removeAttr (classList : List Attr) (attrName clName : String) : List Attr :=
  classList.eraseP (isEntry attrName clName)

/-- The device attribute made for an entry of the class list. -/
def newAttribute (ptr : Nat) (attr : Attr) (alarmed : Bool) (index : Nat) : Attribute :=
  { ptr := ptr, name := attr.name, dataType := attr.dataType, dataFormat := attr.dataFormat
    writable := attr.writable, assocName := attr.assoc, alarmed := alarmed
    attrIdx := index, assocInd := none }

end ClassAttribute

section Requests

/-- One class: its list of attributes and its devices. -/
structure World where
  classList : List Attr
  devices : List MultiAttr
  nextPtr : Nat

/-- `alarmed` is what the properties of the new attribute say of its alarms. -/
inductive Request
  | add (dev : Nat) (newAttr : Attr) (alarmed : Bool)
  | remove (dev : Nat) (remAttr : Attr)
deriving DecidableEq, Repr

def sameDefinition (dataType : Nat) (dataFormat : AttrDataFormat) (writable : AttrWriteType)
    (a : Attr) : Bool :=
  dataType = a.dataType && dataFormat = a.dataFormat && writable = a.writable

def otherDefinition (devName attrName what : String) : DevErrorList :=
  thrown "API_AttrNotFound" ("Device " ++ devName ++ " -> Attribute " ++ attrName ++
    " already exists for your device" ++ what ++ " but with other definition" ++
    "\n(data type, data format or data write type)") "DeviceImpl::add_attribute"

/-- `MultiAttribute::add_attribute`. -/
def MultiAttr.addAttribute (m : MultiAttr) (classList : List Attr) (ptr : Nat) (index : Nat)
    (alarmed : Bool) : MultiAttr × Option DevErrorList :=
  match (classList[index]?).bind (fun a => getAttr classList a.name) with
  | none => (m,some [])
  | some attr =>
    let a := newAttribute ptr attr alarmed index
    let (m,index) := m.insertAttr a
    let m := m.noteKinds a.toAttrDef index
    match m.checkAssociated index m.devName with
    | .error e => (m,some e)
    | .ok m => (m,none)

def World.setDev (w : World) (dev : Nat) (m : MultiAttr) : World :=
  { w with devices := w.devices.set dev m }

/-- `DeviceImpl::add_attribute`. -/
def addAttribute (w : World) (dev : Nat) (m : MultiAttr) (newAttr : Attr) (alarmed : Bool) :
    World × Option DevErrorList :=
  match m.getAttrByName newAttr.name with
  | .ok alAttr =>
    if sameDefinition alAttr.dataType alAttr.dataFormat alAttr.writable newAttr then (w,none)
    else (w,some (otherDefinition m.devName newAttr.name ""))
  | .error _ =>
    match w.classList.findIdx? (fun a => a.name = newAttr.name ∧ a.clName = newAttr.clName) with
    | some i =>
      match w.classList[i]? with
      | none => (w,none)
      | some a =>
        if sameDefinition newAttr.dataType newAttr.dataFormat newAttr.writable a then
          let r := m.addAttribute w.classList w.nextPtr i alarmed
          ({ w.setDev dev r.1 with nextPtr := w.nextPtr + 1 },r.2)
        else (w,some (otherDefinition m.devName newAttr.name " class"))
    | none =>
      let classList := w.classList ++ [newAttr]
      let r := m.addAttribute classList w.nextPtr w.classList.length alarmed
      ({ w.setDev dev r.1 with classList := classList, nextPtr := w.nextPtr + 1 },r.2)

def shiftIdx (oldIdx : Int) (a : Attribute) : Attribute :=
  { a with attrIdx := if oldIdx < a.attrIdx then a.attrIdx - 1 else a.attrIdx }

/-- The positions of the attributes of a kind. -/
def positions (p : AttrDef → Bool) (l : List AttrDef) : List Int :=
  (l.zipIdx.filter (fun x => p x.1)).map (fun x => (x.2 : Int))

/-- The vector and the map of `MultiAttribute::remove_attribute`. -/
def MultiAttr.eraseAttr (m : MultiAttr) (index : Nat) (a : AttrDef) : MultiAttr :=
  { m with
      attrList := m.attrList.eraseIdx index
      attrMap := updSlots (fun x : Attribute => lowerName x.name) (fun _ => moveIndex (-1))
        ((m.attrList.eraseIdx index).drop index)
        (Function.update m.attrMap (lowerName a.name) none) }

def MultiAttr.rebuildKinds (m : MultiAttr) : MultiAttr :=
  { m with writableAttrList := positions AttrDef.isWritable m.defs
           alarmAttrList := positions AttrDef.isAlarmed m.defs }

/-- The indexes in the class list of another device; its last two attributes are left out. -/
def MultiAttr.shiftOther (oldIdx : Int) (m : MultiAttr) : MultiAttr :=
  { m with attrList := (m.attrList.take (m.attrList.length - 2)).map (shiftIdx oldIdx) ++
      m.attrList.drop (m.attrList.length - 2) }

def MultiAttr.shiftOwn (oldIdx : Int) (m : MultiAttr) : MultiAttr :=
  { m with attrList := m.attrList.map (shiftIdx oldIdx) }

/-- `MultiAttribute::remove_attribute`, for the device and the others of its class. -/
def removeFromDevice (w : World) (dev : Nat) (m : MultiAttr) (attrName : String) (updateIdx : Bool) :
    World × Option DevErrorList :=
  match m.getAttrIndByName attrName with
  | .error e => (w,some e)
  | .ok attIndex =>
    match m.at attIndex with
    | none => (w,some [])
    | some att =>
      let m := m.eraseAttr attIndex.toNat att.toAttrDef
      let m := if updateIdx then m.shiftOwn att.attrIdx else m
      let w := if updateIdx then { w with devices := w.devices.map (MultiAttr.shiftOther att.attrIdx) }
        else w
      let m := m.rebuildKinds
      let r := m.checkAll "a/b/c" (List.range m.attrList.length)
      (w.setDev dev r.1,r.2)

/-- A device that does not keep the entry of the class list alive. -/
def isException (classList : List Attr) (remAttr : Attr) (m : MultiAttr) : Bool :=
  match m.getAttrByName remAttr.name with
  | .error _ => true
  | .ok att =>
    match if 0 ≤ att.attrIdx then classList[att.attrIdx.toNat]? else none with
    | none => true
    | some a => a.clName ≠ remAttr.clName

def updateIdx (w : World) (remAttr : Attr) : Bool :=
  w.devices.length ≤ 1 ||
    (w.devices.filter (isException w.classList remAttr)).length = w.devices.length - 1

/-- `DeviceImpl::remove_attribute`. -/
def removeAttribute (w : World) (dev : Nat) (m : MultiAttr) (remAttr : Attr) :
    World × Option DevErrorList :=
  match m.getAttrByName remAttr.name with
  | .error _ => (w,some (thrown "API_AttrNotFound" ("Attribute " ++ remAttr.name ++
      " is not defined as attribute for your device.\nCan't remove it") "DeviceImpl::remove_attribute"))
  | .ok _ =>
    if updateIdx w remAttr then
      removeFromDevice { w with classList := removeAttr w.classList remAttr.name remAttr.clName } dev m
        remAttr.name true
    else removeFromDevice w dev m remAttr.name false

def step (w : World) (r : Request) : World × Option DevErrorList :=
  match r with
  | .add dev newAttr alarmed =>
    match w.devices[dev]? with
    | none => (w,none)
    | some m => addAttribute w dev m newAttr alarmed
  | .remove dev remAttr =>
    match w.devices[dev]? with
    | none => (w,none)
    | some m => removeAttribute w dev m remAttr

def run (w : World) (rs : List Request) : World := rs.foldl (fun w r => (step w r).1) w

end Requests

section Start

/-- The tables of a device without attributes. -/
def MultiAttr.none (devName : String) : MultiAttr := ⟨devName,[],[],[],fun _ => .none⟩

/-- One turn of the loop of the constructor, for the entry at a position of the class list. -/
def MultiAttr.addClassAttr (classList : List Attr) (ptr : Nat) (alarmed : Nat → Bool) (m : MultiAttr)
    (x : Attr × Nat) : MultiAttr :=
  match getAttr classList x.1.name with
  | .none => m
  | some attr =>
    let a := newAttribute (ptr + x.2) attr (alarmed x.2) x.2
    (m.addAttr a).noteKinds a.toAttrDef x.2

/-- The constructor of `MultiAttribute`. -/
def MultiAttr.construct (devName : String) (classList : List Attr) (ptr : Nat) (alarmed : Nat → Bool) :
    MultiAttr × Option DevErrorList :=
  let m := classList.zipIdx.foldl (MultiAttr.addClassAttr classList ptr alarmed) (MultiAttr.none devName)
  m.checkAll devName (List.range m.attrList.length)

def endAttribute (ptr : Nat) (name : String) (dataType : Nat) : Attribute :=
  { ptr := ptr, name := name, dataType := dataType, dataFormat := .scalar, writable := .read
    assocName := "None", alarmed := false, attrIdx := -1, assocInd := .none }

/-- The types are DEV_STATE and DEV_STRING. -/
def MultiAttr.addStateStatusAttrs (m : MultiAttr) (ptr : Nat) : MultiAttr :=
  (m.addAttr (endAttribute ptr "State" 19)).addAttr (endAttribute (ptr + 1) "Status" 8)

/-- A device whose constructor throws is not created. -/
def World.createDevice (w : World) (devName : String) (alarmed : Nat → Bool) : World :=
  match MultiAttr.construct devName w.classList w.nextPtr alarmed with
  | (_,some _) => w
  | (m,.none) =>
    { w with devices := w.devices ++ [m.addStateStatusAttrs (w.nextPtr + w.classList.length)]
             nextPtr := w.nextPtr + w.classList.length + 2 }

/-- The class at the start of its server. -/
def started (classList : List Attr) (devs : List (String × (Nat → Bool))) : World :=
  devs.foldl (fun w d => w.createDevice d.1 d.2) ⟨classList,[],0⟩

end Start

end CppTango.Device.Dynamic
