import CppTango.Db.Client
import Mathlib.Data.List.AList

namespace CppTango.Db.ServerData

section Tables
variable {κ : Type} [DecidableEq κ]

abbrev Values := { l : List String // l ≠ [] }

/-- The properties of one kind of object. The first part of a key is the object they belong to;
names are taken as the database compares them. -/
abbrev Table (κ : Type) := AList (fun _ : String × κ => Values)

def Table.keysOf (t : Table κ) (owner : String) : List κ :=
  (t.keys.filter (fun k => k.1 = owner)).map Prod.snd

def Table.valuesOf (t : Table κ) (owner : String) (k : κ) : List String :=
  ((t.lookup (owner,k)).map Subtype.val).getD []

/-- A property without values is not stored. -/
def Table.put (t : Table κ) (owner : String) (k : κ) (l : List String) : Table κ :=
  if h : l ≠ [] then t.insert (owner,k) ⟨l,h⟩ else t

end Tables

section Database

/-- The three tables of the classes, or of the devices. Attributes and pipes have the name of the
item in front of the property. -/
structure Tables where
  props : Table String
  atts : Table (String × String)
  pipes : Table (String × String)

def Tables.empty : Tables := ⟨∅,∅,∅⟩

structure DbDevInfo where
  name : String
  className : String
  server : String
deriving DecidableEq, Repr

structure Database where
  devices : List DbDevInfo
  classes : Tables
  devs : Tables

def Database.empty : Database := ⟨[],.empty,.empty⟩

/-- The properties asked for; one that does not exist has no values. -/
def getProps (t : Table String) (owner : String) (names : List String) : DbData :=
  names.map (fun p => ⟨p,t.valuesOf owner p⟩)

def itemList (t : Table (String × String)) (owner : String) : List String :=
  ((t.keysOf owner).map Prod.fst).dedup

def itemProps (t : Table (String × String)) (owner item : String) : DbData :=
  ((t.keysOf owner).filter (fun k => k.1 = item)).map (fun k => ⟨k.2,t.valuesOf owner k⟩)

/-- Each item with the number of its properties, and these. -/
def getItems (t : Table (String × String)) (owner : String) (items : List String) : DbData :=
  items.flatMap (fun i => ⟨i,[numText (itemProps t owner i).length]⟩ :: itemProps t owner i)

def putProps (t : Table String) (owner : String) (dbData : DbData) : Table String :=
  dbData.foldl (fun t d => t.put owner d.name d.valueString) t

/-- The loop over the items of a request. The first argument bounds its turns. -/
def putItems (owner : String) : Nat → Table (String × String) → DbData →
    Option (Table (String × String))
  | _,t,[] => some t
  | 0,_,_ => none
  | fuel + 1,t,d :: ds =>
    match d.short with
    | none => none
    | some nProps =>
      if nProps ≤ ds.length then
        putItems owner fuel
          ((ds.take nProps).foldl (fun t p => t.put owner (d.name,p.name) p.valueString) t)
          (ds.drop nProps)
      else none

variable (db : Database)

def getServerClassList (server : String) : List String :=
  ((db.devices.filter (fun r => r.server = server)).map (·.className)).dedup.filter (· ≠ "DServer")

def getDeviceName (server className : String) : List String :=
  (db.devices.filter (fun r => r.server = server ∧ r.className = className)).map (·.name)

def getClassPropertyList (className : String) : List String := db.classes.props.keysOf className

def getClassProperty (className : String) (names : List String) : DbData :=
  getProps db.classes.props className names

def getClassAttributeList (className : String) : List String := itemList db.classes.atts className

def getClassAttributeProperty (className : String) (atts : List String) : DbData :=
  getItems db.classes.atts className atts

def getClassPipeList (className : String) : List String := itemList db.classes.pipes className

def getClassPipeProperty (className : String) (pipes : List String) : DbData :=
  getItems db.classes.pipes className pipes

def getDevicePropertyList (dev : String) : List String := db.devs.props.keysOf dev

def getDeviceProperty (dev : String) (names : List String) : DbData :=
  getProps db.devs.props dev names

def getDeviceAttributeList (dev : String) : List String := itemList db.devs.atts dev

def getDeviceAttributeProperty (dev : String) (atts : List String) : DbData :=
  getItems db.devs.atts dev atts

def getDevicePipeList (dev : String) : List String := itemList db.devs.pipes dev

def getDevicePipeProperty (dev : String) (pipes : List String) : DbData :=
  getItems db.devs.pipes dev pipes

def addServer (server : String) (devInfos : List DbDevInfo) : Database :=
  { db with
    devices := db.devices.filter (fun r => r.server ≠ server) ++
      devInfos.map (fun d => { d with server := server }) }

end Database

section Data

/-- What is kept of a device or of a class. -/
structure TangoObject where
  name : String
  properties : DbData
  attributes : List AttrBlock
  pipes : List AttrBlock
deriving DecidableEq, Repr

structure TangoClass extends TangoObject where
  devices : List TangoObject
deriving DecidableEq, Repr

structure DbServerData where
  fullServerName : String
  classes : List TangoClass
deriving DecidableEq, Repr

/-- Each property that has values gets an entry of its own. -/
def entries (item : String) (dbData : DbData) : List AttrBlock :=
  (dbData.filter (fun d => d.valueString ≠ [])).map (fun d => ⟨item,[d]⟩)

def tangoDevice (db : Database) (na : String) : TangoObject where
  name := na
  properties :=
    let propList := getDevicePropertyList db na
    (propList.zip (getDeviceProperty db na propList)).filterMap (fun (p,d) =>
      if d.valueString ≠ [] then some ⟨p,d.valueString⟩ else none)
  attributes := (getDeviceAttributeList db na).flatMap (fun att =>
    entries att ((getDeviceAttributeProperty db na [att]).drop 1))
  pipes := (getDevicePipeList db na).flatMap (fun pipe =>
    entries pipe ((getDevicePipeProperty db na [pipe]).drop 1))

/-- The name of an attribute or a pipe stands where the class is asked for, and no names follow. -/
def tangoClass (db : Database) (na server : String) : TangoClass where
  name := na
  properties := getClassProperty db na (getClassPropertyList db na)
  attributes := (getClassAttributeList db na).flatMap (fun att =>
    (getClassAttributeProperty db att []).map (fun d => ⟨att,[d]⟩))
  pipes := (getClassPipeList db na).flatMap (fun pipe =>
    (getClassPipeProperty db pipe []).map (fun d => ⟨pipe,[d]⟩))
  devices := (getDeviceName db server na).map (tangoDevice db)

/-- The constructor; `none` when the server is not defined in the database. -/
def dbServerData (db : Database) (execName instName : String) : Option DbServerData :=
  let server := execName ++ "/" ++ instName
  if db.devices.any (fun r => r.name = "dserver/" ++ server) then
    some ⟨server,("DServer" :: getServerClassList db server).map (tangoClass db · server)⟩
  else none

end Data

section Put

def putBlocks (t : Table (String × String)) (owner : String) (blocks : List AttrBlock) :
    Option (Table (String × String)) :=
  if blocks = [] then some t
  else
    let dbData := (blocks.filter (fun b => b.props ≠ [])).flatMap AttrBlock.data
    putItems owner dbData.length t dbData

/-- `put_properties`, `put_attribute_properties` and `put_pipe_properties` of a device or a
class. -/
def TangoObject.put (o : TangoObject) (t : Tables) : Option Tables :=
  (putBlocks t.atts o.name o.attributes).bind (fun atts =>
    (putBlocks t.pipes o.name o.pipes).map (fun pipes =>
      { props := if o.properties = [] then t.props else putProps t.props o.name o.properties
        atts := atts
        pipes := pipes }))

def createServer (data : DbServerData) (db : Database) : Database :=
  addServer db data.fullServerName
    (data.classes.flatMap (fun c =>
      c.devices.map (fun d => ⟨d.name,c.name,data.fullServerName⟩)))

def putDevice (db : Database) (d : TangoObject) : Option Database :=
  (d.put db.devs).map (fun t => { db with devs := t })

def putClass (db : Database) (c : TangoClass) : Option Database :=
  (c.put db.classes).bind (fun t => c.devices.foldlM putDevice { db with classes := t })

def putProperties (data : DbServerData) (db : Database) : Option Database :=
  data.classes.foldlM putClass db

/-- `put_in_database` to the database of a host; `none` when it throws. -/
def putInDatabase (data : DbServerData) (tgHost : String) (db : Database) : Option Database :=
  if tgHost.toList.contains ':' then putProperties data (createServer data db) else none

end Put

end CppTango.Db.ServerData
