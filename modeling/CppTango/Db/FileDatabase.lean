import CppTango.Db.Client
import CppTango.Device.MultiAttribute
import CppTango.Lib.Keyed

namespace CppTango.Db

open CppTango.Lib CppTango.Device

section Store

structure TProperty where
  name : String
  value : List String
deriving DecidableEq, Repr

structure TAttributeProperty where
  attributeName : String
  properties : List TProperty
deriving DecidableEq, Repr

/-- A device, or what a class has in common with one. -/
structure TDevice where
  name : String
  properties : List TProperty
  attributeProperties : List TAttributeProperty
deriving DecidableEq, Repr

/-- The devices of a class are objects of the server's list; their names stand for them. -/
structure TTangoClass extends TDevice where
  devices : List String
deriving DecidableEq, Repr

structure TFreeObject where
  name : String
  properties : List TProperty
deriving DecidableEq, Repr

structure TServer where
  name : String
  instanceName : String
  classes : List TTangoClass
  devices : List TDevice
  freeObjects : List TFreeObject
deriving DecidableEq, Repr

/-- The loop of `equalsIgnoreCase`, from the last character on; two empty texts are not equal. -/
def equalsIgnoreCase (s1 s2 : String) : Bool :=
  if s1.toList.length = s2.toList.length then
    s1.toList ≠ [] && (s1.toList.reverse.zip s2.toList.reverse).all (fun (a,b) => a.toLower = b.toLower)
  else false

def hasName (name : String) (p : TProperty) : Bool := equalsIgnoreCase p.name name

def hasAttributeName (name : String) (p : TAttributeProperty) : Bool :=
  equalsIgnoreCase p.attributeName name

end Store

section PutProperties

/-- `sscanf` with `%6u` or `%6d`: at most six characters of a number. -/
def scan6 (s : String) : Option Nat :=
  (readSign ((s.toList.dropWhile isSpace).take 6)).map (fun (neg,n) =>
    if neg then (2 ^ 32 - n) % 2 ^ 32 else n)

/-- The loop over properties of `DbPutDeviceProperty` and, with `stop`, of `DbPutClassProperty`.
A request that ends too early has no meaning. -/
def putProps (stop : Bool) : Nat → Nat → List TProperty → List String → Option (List TProperty)
  | 0,_,props,_ => some props
  | n + 1,nValues,props,name :: count :: c =>
    let nValues := (scan6 count).getD nValues
    match takeStrings nValues c with
    | none => none
    | some (vals,c) =>
      if props.any (hasName name) then
        putProps stop n nValues (updateFirst (hasName name) (fun p => { p with value := vals }) props) c
      else
        let props := props ++ [⟨name,vals⟩]
        if stop ∧ c = [] then some props else putProps stop n nValues props c
  | _,_,_,_ => none

/-- The properties of one object after a put request. -/
def putProperties (stop : Bool) (dataIn : List String) (props : List TProperty) :
    Option (List TProperty) :=
  match dataIn with
  | _ :: count :: c => putProps stop ((scan6 count).getD 0) 0 props c
  | _ => some props

def deleteProperties (names : List String) (props : List TProperty) : List TProperty :=
  names.foldl (fun props name => props.eraseP (hasName name)) props

end PutProperties

section PutAttributes

/-- Where the loops over one attribute's properties stand. -/
structure AttrScan where
  props : List TProperty
  rest : List String
  numVals : Nat
  done : Bool
deriving DecidableEq, Repr

/-- The loop over the stored properties: it goes on behind a property it has found. Also returned
is whether one was found. -/
def scanStored : List TProperty → List String → Nat → Bool → Option (AttrScan × Bool)
  | [],c,numVals,exist => some (⟨[],c,numVals,false⟩,exist)
  | p :: ps,name :: c,numVals,exist =>
    if equalsIgnoreCase p.name name then
      match c with
      | [] => none
      | count :: c =>
        let numVals := (scan6 count).getD numVals
        match takeStrings numVals c with
        | none => none
        | some (vals,c) =>
          if c = [] then some (⟨{ p with value := vals } :: ps,c,numVals,true⟩,true)
          else (scanStored ps c numVals true).map (fun (a,exist) =>
            ({ a with props := { p with value := vals } :: a.props },exist))
    else (scanStored ps (name :: c) numVals exist).map (fun (a,exist) =>
      ({ a with props := p :: a.props },exist))
  | _ :: _,[],_,_ => none

/-- A property that was not found is new. -/
def newProp (a : AttrScan) : Option AttrScan :=
  match a.rest with
  | name :: count :: c =>
    let numVals := (scan6 count).getD a.numVals
    match takeStrings numVals c with
    | none => none
    | some (vals,c) => some ⟨a.props ++ [⟨name,vals⟩],c,numVals,c = []⟩
  | _ => none

/-- The loop over the properties of one attribute of the request. -/
def putAttrProps : Nat → AttrScan → Option AttrScan
  | 0,a => some a
  | n + 1,a =>
    match scanStored a.props a.rest a.numVals false with
    | none => none
    | some (a,exist) =>
      if a.done then some a
      else if exist then putAttrProps n a
      else
        match newProp a with
        | none => none
        | some a => if a.done then some a else putAttrProps n a

/-- The loop over the attributes of the request. -/
def putAttrs : Nat → Nat → Nat → List TAttributeProperty → List String →
    Option (List TAttributeProperty)
  | 0,_,_,attrs,_ => some attrs
  | n + 1,numProp,numVals,attrs,name :: count :: c =>
    let numProp := (scan6 count).getD numProp
    let attrs := if attrs.any (hasAttributeName name) then attrs else attrs ++ [⟨name,[]⟩]
    match attrs.find? (hasAttributeName name) with
    | none => none
    | some att =>
      match putAttrProps numProp ⟨att.properties,c,numVals,false⟩ with
      | none => none
      | some a =>
        let attrs := updateFirst (hasAttributeName name) (fun t => { t with properties := a.props }) attrs
        if a.done then some attrs else putAttrs n numProp a.numVals attrs a.rest
  | _,_,_,_,_ => none

/-- The attribute properties of one object after a put request. -/
def putAttributeProperties (dataIn : List String) (attrs : List TAttributeProperty) :
    Option (List TAttributeProperty) :=
  match dataIn with
  | _ :: count :: c => putAttrs ((scan6 count).getD 0) 0 0 attrs c
  | _ => none

/-- Every entry of the attribute is gone through; there is one at most. -/
def deleteAttributeProperties (attrName : String) (names : List String)
    (attrs : List TAttributeProperty) : List TAttributeProperty :=
  attrs.map (fun t => if hasAttributeName attrName t then
    { t with properties := deleteProperties names t.properties } else t)

end PutAttributes

section Server

/-- The two kinds of objects that have properties and attribute properties. -/
inductive Side
  | device | cls
deriving DecidableEq, Repr

def TServer.holders (s : TServer) : Side → List TDevice
  | .device => s.devices
  | .cls => s.classes.map TTangoClass.toTDevice

def named (name : String) (d : TDevice) : Bool := equalsIgnoreCase d.name name

def TServer.update (s : TServer) (side : Side) (name : String) (f : TDevice → TDevice) : TServer :=
  match side with
  | .device => { s with devices := updateFirst (named name) f s.devices }
  | .cls =>
    let onClass (c : TTangoClass) : TTangoClass := { c with toTDevice := f c.toTDevice }
    { s with classes := updateFirst (fun c => named name c.toTDevice) onClass s.classes }

/-- `DbPutDeviceProperty` and `DbPutClassProperty`. -/
def dbPutProperty (side : Side) (s : TServer) (dataIn : List String) : Option TServer :=
  match dataIn with
  | name :: _ :: _ =>
    match (s.holders side).find? (named name) with
    | none => some s
    | some d => (putProperties (side = .cls) dataIn d.properties).map (fun props =>
        s.update side name (fun d => { d with properties := props }))
  | _ => some s

/-- `DbDeleteDeviceProperty` and `DbDeleteClassProperty`. -/
def dbDeleteProperty (side : Side) (s : TServer) (dataIn : List String) : Option TServer :=
  match dataIn with
  | [] => none
  | name :: names =>
    some (s.update side name (fun d => { d with properties := deleteProperties names d.properties }))

/-- `DbPutDeviceAttributeProperty` and `DbPutClassAttributeProperty`. -/
def dbPutAttributeProperty (side : Side) (s : TServer) (dataIn : List String) : Option TServer :=
  match dataIn with
  | [] => none
  | name :: _ =>
    match (s.holders side).find? (named name) with
    | none => some s
    | some d => (putAttributeProperties dataIn d.attributeProperties).map (fun attrs =>
        s.update side name (fun d => { d with attributeProperties := attrs }))

/-- Only devices have it: `DbDeleteClassAttributeProperty` throws and changes nothing. -/
def dbDeleteAttributeProperty (side : Side) (s : TServer) (dataIn : List String) : Option TServer :=
  match side,dataIn with
  | .cls,_ => some s
  | .device,name :: attrName :: names => some (s.update .device name (fun d =>
      { d with attributeProperties := deleteAttributeProperties attrName names d.attributeProperties }))
  | .device,_ => none

end Server

section Replies

/-- The strings of one property in a reply. -/
def propStrings (name : String) (value : List String) : List String :=
  name :: numText value.length :: value

/-- A property of a device: one that is not there has a dummy value. -/
def deviceProp (props : List TProperty) (name : String) : List String :=
  match props.find? (fun p => equalsIgnoreCase name p.name) with
  | some p => propStrings p.name p.value
  | none => [name,"0"," "]

/-- A property of a class, under the name asked for. -/
def classProp (props : List TProperty) (name : String) : List String :=
  match props.find? (fun p => equalsIgnoreCase name p.name) with
  | some p => propStrings name p.value
  | none => [name,"0"]

def dbGetDeviceProperty (s : TServer) (dataIn : List String) : List String :=
  match dataIn with
  | [] => []
  | dev :: names => dev :: numText names.length ::
      match s.devices.find? (fun d => equalsIgnoreCase dev d.name) with
      | some d => names.flatMap (deviceProp d.properties)
      | none => names.flatMap (fun name => [name,"0"," "])

def dbGetClassProperty (s : TServer) (dataIn : List String) : List String :=
  match dataIn with
  | [] => []
  | cl :: names => cl :: numText names.length ::
      match s.classes.find? (fun c => equalsIgnoreCase cl c.name) with
      | some c => names.flatMap (classProp c.properties)
      | none => names.flatMap (fun name => [name,"0"])

/-- The attribute's name and a zero; each entry found writes its number of properties over the last
string and adds them. -/
def attrStrings (attrs : List TAttributeProperty) (name : String) : List String :=
  attrs.foldl (fun out t => if equalsIgnoreCase t.attributeName name then
      out.dropLast ++ numText t.properties.length ::
        t.properties.flatMap (fun p => propStrings p.name p.value)
    else out) [name,"0"]

/-- `DbGetDeviceAttributeProperty` and `DbGetClassAttributeProperty`. -/
def dbGetAttributeProperty (side : Side) (s : TServer) (dataIn : List String) : List String :=
  match dataIn with
  | [] => []
  | owner :: names => owner :: numText names.length ::
      match (s.holders side).find? (named owner) with
      | some d => names.flatMap (attrStrings d.attributeProperties)
      | none => names.flatMap (fun name => [name,"0"])

end Replies

end CppTango.Db
