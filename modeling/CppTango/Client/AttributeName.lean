import CppTango.Client.DeviceNameWritten

namespace CppTango.Client.Names
open CppTango.Device (thrown)
open CppTango.Lib

/-- `ApiWrongNameExcept` and the like of the parsers, or what a database or a device threw. -/
inductive AttributeFault
  | name (fault : NameFault)
  | failed (errors : DevErrorList)
deriving DecidableEq, Repr

/-- How `get_attribute_config` ends; not reached stands for `ConnectionFailed` and `CommunicationFailed`. -/
inductive ConfigReply
  | done
  | notReached
  | failed (reason : String)
deriving DecidableEq, Repr

/-- What is around the proxies: the database of the environment, the names behind aliases and what devices reply. -/
structure World where
  envHost : Text
  envPort : Text
  envPortNum : Int
  inServer : Bool
  getFqdn : Text → Text
  /-- The name of the device that has an alias in the database of a host and port. -/
  realName : Text → Text → Text → Text
  /-- The full name of an attribute alias; without a place in the database of the environment. -/
  attributeAlias : Option (Text × Int) → Text → Except DevErrorList Text
  attributeConfig : Text → Text → ConfigReply
  /-- What the memory of a new device proxy holds. -/
  memory : Int × Int × Bool × Bool

section DeviceProxies
variable (w : World)

/-- A device proxy that is made reaches its device, and an alias gives way to the name of the device. -/
def DeviceProxy.opened (d : DeviceProxy) : DeviceProxy :=
  let d := if d.dbaseUsed = true ∧ d.fromEnvVar = true then
      { d with dbHost := w.envHost, dbPort := w.envPort, dbPortNum := w.envPortNum }
    else d
  if d.isAlias = true then { d with deviceName := lower (w.realName d.dbHost d.dbPort d.deviceName) } else d

def newDeviceProxy (name : Text) : Except AttributeFault DeviceProxy :=
  match parseName name (.initialised w.memory.1 w.memory.2.1 w.memory.2.2.1 w.memory.2.2.2) w.getFqdn with
  | .error e => .error (.name e)
  | .ok d => .ok (d.opened w)

end DeviceProxies

/-- Without a place it is in the database of the environment. -/
structure DbAttribute where
  attrName : Text
  deviceName : Text
  place : Option (Text × Text)
deriving DecidableEq, Repr

structure AttributeProxy where
  host : Text
  port : Text
  portNum : Int
  dbHost : Text
  dbPort : Text
  dbPortNum : Int
  fromEnvVar : Bool
  dbaseUsed : Bool
  attrName : Text
  deviceName : Text
  aliasName : Text
  devProxy : Option DeviceProxy
  dbAttr : Option DbAttribute
  userDefinedName : Option Text
deriving DecidableEq, Repr

/-- A new proxy; the numbers and flags are what the memory held. -/
def AttributeProxy.initialised (portNum dbPortNum : Int) (fromEnvVar dbaseUsed : Bool)
    (userDefinedName : Option Text) : AttributeProxy :=
  ⟨[],[],portNum,[],[],dbPortNum,fromEnvVar,dbaseUsed,[],[],[],none,none,userDefinedName⟩

section ParseAttribute

def wrongAttribute (desc : String) : NameFault :=
  .wrongName (thrown "API_WrongAttributeNameSyntax" desc "AttributeProxy::parse_name")

def wrongFields : NameFault :=
  wrongAttribute ("Attribute name must have four fields separated by /'s or no /'s at all if it is an alias " ++
    "(e.g. my/device/name/an_attr or myalias)")

/-- The separators of a name and the position behind the last one; `strict` asks for a text on both sides of each. -/
def decompose (strict : Bool) (tmp : Text) (nSep endPos : Nat) : Except NameFault (Nat × Nat) :=
  match h : tmp.idxOf? '/' with
  | none => .ok (nSep,endPos)
  | some pos =>
    if strict = true ∧ (pos = 0 ∨ (tmp.drop (pos + 1)).length = 0) then .error wrongFields
    else decompose strict (tmp.drop (pos + 1)) (nSep + 1) (endPos + (pos + 1))
termination_by tmp.length
decreasing_by
  obtain ⟨e,t,-,rfl,rfl⟩ := idxOf?_cut h
  rw [List.length_drop,List.length_append,List.length_cons]
  omega

variable (w : World)

/-- An attribute alias, with the error of an unknown one. -/
def getAttributeAlias (place : Option (Text × Int)) (deviceName : Text) : Except AttributeFault Text :=
  match w.attributeAlias place deviceName with
  | .ok name => .ok name
  | .error errors =>
    if errors.head?.map (·.reason) = some "DB_SQLError" then
      .error (.failed (errors ++ thrown "API_AliasNotDefined"
        ("Can't connect to attribute with alias " ++ String.ofList deviceName) "AttributeProxy::parse_name"))
    else .error (.failed errors)

variable (p : AttributeProxy)

/-- Host and port, and what stands behind them. -/
def parsePlace (woDbMod : Text) : Except NameFault AttributeProxy :=
  if p.dbaseUsed = true then
    match woDbMod.idxOf? '/' with
    | none => .ok { p with deviceName := woDbMod, fromEnvVar := true, portNum := 0, host := fromIor, port := fromIor }
    | some pos => do
      let befSep ← substr woDbMod 0 (some pos)
      match befSep.idxOf? ':' with
      | none => .ok { p with deviceName := woDbMod, fromEnvVar := true, portNum := 0, port := fromIor, host := fromIor }
      | some tmp =>
        let dbHost ← substr befSep 0 (some tmp)
        let dbPort ← substr befSep (tmp + 1) none
        let deviceName ← substr woDbMod (pos + 1) none
        .ok { p with
          dbHost, dbPort, dbPortNum := streamInt dbPort, deviceName, fromEnvVar := false, portNum := 0,
          port := fromIor, host := fromIor }
  else
    match woDbMod.idxOf? ':' with
    | none => .error (wrongAttribute "Host and port not correctly defined in device name")
    | some pos => do
      let host ← substr woDbMod 0 (some pos)
      match woDbMod.idxOf? '/' with
      | none => .error (wrongAttribute "Host and port not correctly defined in device name")
      | some tmp =>
        let port ← substr woDbMod (pos + 1) (countTo tmp (pos + 1))
        let deviceName ← substr woDbMod (tmp + 1) none
        .ok { p with
          host, port, portNum := streamInt port, deviceName, dbHost := notUsed, dbPort := notUsed, dbPortNum := 0 }

/-- The attribute that an alias stands for. -/
def parseAlias : Except AttributeFault AttributeProxy :=
  if p.dbaseUsed = false then
    .error (.name (wrongAttribute "Attribute alias is not supported when not using database"))
  else if ':' ∈ p.deviceName then
    .error (.name (wrongAttribute "Wrong alias name (: not allowed in alias name)"))
  else if (find resSep p.deviceName).isSome = true then
    .error (.name (wrongAttribute "Wrong alias name (-> not allowed in alias name)"))
  else do
    let name ← getAttributeAlias w (if p.fromEnvVar = true then none else some (p.dbHost,p.dbPortNum)) p.deviceName
    let (nSep,endPos) ← (decompose false name 0 0).mapError .name
    if nSep ≠ 3 then
      .error (.name (wrongAttribute
        "Attribute name must have four fields separated by /'s (check the alias entry in the database) "))
    else do
      let attrName ← (substr name endPos none).mapError .name
      let deviceName ← (substr name 0 (some (endPos - 1))).mapError .name
      .ok { p with attrName, deviceName }

/-- Device and attribute of a name with separators. -/
def parseFields (casedName woDbMod : Text) (nSep endPos : Nat) : Except NameFault AttributeProxy := do
  let deviceName ← substr p.deviceName 0 (some (endPos - 1))
  let p ←
    if nSep = 1 then
      if p.dbHost = notUsed then .error (wrongAttribute "Can't use device or attribute alias without database")
      else if p.fromEnvVar = false then do
        let deviceName ← substr woDbMod 0 (rfind ['/'] woDbMod)
        .ok { p with deviceName, aliasName := deviceName }
      else .ok { p with deviceName, aliasName := deviceName }
    else .ok { p with deviceName }
  let start := match rfind ['/'] casedName with
    | none => 0
    | some pos => pos + 1
  let attrName ← substr casedName start ((rfind ['#'] casedName).bind (countTo · start))
  .ok { p with attrName }

def parseAttributeName (fullName : Text) : Except AttributeFault AttributeProxy := do
  let woProt ← (nameWoProt "AttributeProxy::parse_name" (lower fullName)).mapError .name
  let (woDbMod,dbaseUsed) ← (nameWoDbMod "AttributeProxy::parse_name" woProt).mapError .name
  let p ← (parsePlace { p with dbaseUsed } woDbMod).mapError .name
  let (nSep,endPos) ← (decompose true p.deviceName 0 0).mapError .name
  if 1 < nSep ∧ nSep ≠ 3 then .error (.name wrongFields)
  else if nSep = 0 then parseAlias w p
  else (parseFields p fullName woDbMod nSep endPos).mapError .name

end ParseAttribute

section Proxies
variable (w : World)

/-- The name of a device in the database of a host and port. -/
def placedName (dbHost dbPort deviceName : Text) : Text := dbHost ++ ':' :: (dbPort ++ '/' :: deviceName)

/-- The device must support the attribute. -/
def AttributeProxy.checked (p : AttributeProxy) : Except AttributeFault AttributeProxy :=
  match w.attributeConfig p.deviceName p.attrName with
  | .failed reason =>
    if reason = "API_AttrNotFound" then
      .error (.name (.wrongName (thrown "API_UnsupportedAttribute"
        ("Attribute " ++ String.ofList p.attrName ++ " is not supported by device " ++ String.ofList p.deviceName)
        "AttributeProxy::real_constructor")))
    else if reason ≠ "API_CantConnectToDevice" then .ok { p with devProxy := none, dbAttr := none }
    else .ok p
  | _ => .ok p

def realConstructor (p : AttributeProxy) (name : Text) : Except AttributeFault AttributeProxy := do
  let p ← parseAttributeName w p name
  let p ←
    if p.dbaseUsed = true then
      if p.fromEnvVar = true then do
        let d ← newDeviceProxy w p.deviceName
        let deviceName := if p.aliasName ≠ [] then d.deviceName else p.deviceName
        .ok { p with
          devProxy := some d, deviceName, dbAttr := some ⟨p.attrName,deviceName,none⟩, dbHost := w.envHost,
          dbPort := w.envPort, dbPortNum := w.envPortNum }
      else do
        let d ← newDeviceProxy w (placedName p.dbHost p.dbPort p.deviceName)
        .ok { p with devProxy := some d, dbAttr := some ⟨p.attrName,p.deviceName,some (p.dbHost,p.dbPort)⟩ }
    else do
      -- the name is in lower case here: the parser changed its argument
      let low := lower name
      let d ← newDeviceProxy w (low.take ((rfind ['/'] low).getD low.length) ++ '#' :: dbaseNo)
      .ok { p with devProxy := some d, dbAttr := none }
  p.checked w

/-- The place of a device proxy and what the attribute proxy shows of it. -/
def AttributeProxy.ofDevice (p : AttributeProxy) (d : DeviceProxy) (attName : Text) : AttributeProxy :=
  { p with
    devProxy := some d, dbaseUsed := d.dbaseUsed, fromEnvVar := d.fromEnvVar, host := d.host, port := d.port,
    portNum := d.portNum, dbHost := d.dbHost, dbPort := d.dbPort, dbPortNum := d.dbPortNum, attrName := attName,
    deviceName := d.deviceName }

/-- Where the attribute is in a database. -/
def AttributeProxy.stored (p : AttributeProxy) : DbAttribute :=
  ⟨p.attrName,p.deviceName,if p.fromEnvVar = true then none else some (p.dbHost,p.dbPort)⟩

def ctorFromDp (p : AttributeProxy) (d : DeviceProxy) (attName : Text) : Except AttributeFault AttributeProxy :=
  ({ p.ofDevice d attName with
    dbAttr := if d.dbaseUsed = true then some (p.ofDevice d attName).stored else p.dbAttr } : AttributeProxy).checked w

/-- The members that the copy constructor and the assignment copy first. -/
def AttributeProxy.copied (p prev : AttributeProxy) : AttributeProxy :=
  { p with
    dbaseUsed := prev.dbaseUsed, fromEnvVar := prev.fromEnvVar, host := prev.host, port := prev.port,
    portNum := prev.portNum, dbHost := prev.dbHost, dbPort := prev.dbPort, dbPortNum := prev.dbPortNum,
    deviceName := prev.deviceName, aliasName := prev.aliasName }

/-- The device proxy of a name, and the attribute in the database. -/
def AttributeProxy.connect (p : AttributeProxy) (name : Text) : Except AttributeFault AttributeProxy := do
  let d ← newDeviceProxy w name
  .ok { p with devProxy := some d, dbAttr := some p.stored }

def AttributeProxy.connectCopy (p : AttributeProxy) : Except AttributeFault AttributeProxy :=
  if p.dbaseUsed = true then
    if p.fromEnvVar = true then
      p.connect w (if w.inServer = true then p.deviceName else placedName p.dbHost p.dbPort p.deviceName)
    else p.connect w p.deviceName
  else .ok p

/-- The copy constructor, into a new proxy. -/
def copyConstructor (p prev : AttributeProxy) : Except AttributeFault AttributeProxy :=
  ((p.copied prev).connectCopy w).map fun p => { p with userDefinedName := prev.userDefinedName }

def AttributeProxy.connectAssigned (p : AttributeProxy) : Except AttributeFault AttributeProxy :=
  if p.dbaseUsed = true then
    p.connect w (if p.fromEnvVar = true then p.deviceName else placedName p.dbHost p.dbPort p.deviceName)
  else .ok p

/-- The assignment to another proxy. -/
def assign (p rval : AttributeProxy) : Except AttributeFault AttributeProxy :=
  (({ p.copied rval with attrName := rval.attrName } : AttributeProxy).connectAssigned w).map fun p =>
    { p with userDefinedName := rval.userDefinedName }

end Proxies

section Pieces

theorem drop_after (e : Text) (c : Char) (t : Text) : (e ++ c :: t).drop (e.length + 1) = t := by
  have h := @List.drop_left _ (e ++ [c]) t
  rwa [List.length_append,List.length_singleton,List.append_assoc] at h

theorem decompose_end {strict : Bool} {e : Text} (he : '/' ∉ e) (n k : Nat) : decompose strict e n k = .ok (n,k) := by
  rw [decompose]
  split
  next => rfl
  next pos hpos =>
    rw [List.idxOf?_eq_none_iff.mpr he] at hpos
    cases hpos

theorem decompose_step {e t : Text} (hne : e ≠ []) (he : '/' ∉ e) (ht : t ≠ []) (n k : Nat) :
    decompose true (e ++ '/' :: t) n k = decompose true t (n + 1) (k + (e.length + 1)) := by
  rw [decompose]
  split
  next hnone =>
    rw [idxOf?_append_sep he] at hnone
    cases hnone
  next pos hpos =>
    rw [idxOf?_append_sep he] at hpos
    cases hpos
    have hlen := List.length_pos_of_ne_nil hne
    have hrest := List.length_pos_of_ne_nil ht
    rw [if_neg (by rw [drop_after]; omega),drop_after]

/-- The separators of a device or an alias with an attribute behind it. -/
theorem decompose_named {x : Named} (hx : x.Proper) {t : Text} (ht : t ≠ []) (hs : '/' ∉ t) :
    decompose true (x.text ++ '/' :: t) 0 0 = .ok (if x.isAlias = true then 1 else 3,x.text.length + 1) := by
  cases x with
  | device a b m =>
    obtain ⟨⟨hane,ha⟩,⟨hbne,hb⟩,⟨hmne,hm⟩⟩ := hx
    have htext : (Named.device a b m).text ++ '/' :: t = a ++ '/' :: (b ++ '/' :: (m ++ '/' :: t)) := by
      simp [Named.text]
    rw [htext,decompose_step hane ha (by simp),decompose_step hbne hb (by simp),decompose_step hmne hm ht,
      decompose_end hs]
    simp only [Named.isAlias,Named.text,List.length_append,List.length_cons]
    congr 2
    omega
  | devAlias n =>
    obtain ⟨hne,hn,-⟩ := hx
    rw [Named.text,decompose_step hne hn ht,decompose_end hs]
    simp [Named.isAlias]

theorem mem_of_mem_lower {c : Char} {t : Text} (hc : c.val.toNat < 97) (h : c ∈ lower t) : c ∈ t := by
  obtain ⟨x,hx,he⟩ := List.mem_map.mp h
  rwa [← toLower_eq he hc]

/-- A part of a text in lower case stays as it is. -/
theorem lower_part {s e t r : Text} (h : lower s = e ++ (t ++ r)) : lower t = t := by
  refine (List.map_congr_left ?_).trans (List.map_id t)
  intro c hc
  have hm : c ∈ lower s := by
    rw [h]
    exact List.mem_append_right _ (List.mem_append_left _ hc)
  obtain ⟨x,-,rfl⟩ := List.mem_map.mp hm
  exact toLower_twice x

theorem lower_append (s t : Text) : lower (s ++ t) = lower s ++ lower t := List.map_append

end Pieces

/-- An attribute name as it is written, in any case of its letters. -/
structure AttributeName where
  front : Front
  parts : Parts
  modifier : Modifier
  before : Text
  attr : Text
  behind : Text
  lowerBefore : lower before = front.text ++ parts.text
  lowerBehind : lower behind = modifier.text
  proper : parts.Proper modifier.dbase
  plain : parts.Plain
  attrWord : attr ≠ [] ∧ ∀ c ∈ attr, wordChar c

namespace AttributeName
variable (n : AttributeName)

def text : Text := n.before ++ '/' :: (n.attr ++ n.behind)

theorem attr_clear {c : Char} (hc : c ∈ ['/',':','#']) : c ∉ lower n.attr := by
  intro h
  have hlt : c.val.toNat < 97 := by
    simp only [List.mem_cons,List.not_mem_nil,or_false] at hc
    rcases hc with rfl | rfl | rfl <;> decide
  have hx : c ∈ ['/',':','#','>'] := by
    simp only [List.mem_cons,List.not_mem_nil,or_false] at hc ⊢
    rcases hc with rfl | rfl | rfl <;> simp
  exact word_ne (n.attrWord.2 c (mem_of_mem_lower hlt h)) hx rfl

theorem attr_noSlash : '/' ∉ n.attr :=
  fun h => word_ne (n.attrWord.2 _ h) (by decide) rfl

theorem attr_noHash : '#' ∉ n.attr :=
  fun h => word_ne (n.attrWord.2 _ h) (by decide) rfl

theorem lower_attr_ne : lower n.attr ≠ [] := fun h => n.attrWord.1 (List.map_eq_nil_iff.mp h)

theorem behind_noSlash : '/' ∉ n.behind := by
  intro h
  have hm : '/' ∈ lower n.behind := List.mem_map.mpr ⟨'/',h,rfl⟩
  rw [n.lowerBehind] at hm
  cases hmod : n.modifier with
  | absent =>
    rw [hmod] at hm
    exact absurd hm (by decide)
  | yes =>
    rw [hmod] at hm
    exact absurd hm (by decide)
  | no =>
    rw [hmod] at hm
    exact absurd hm (by decide)

theorem lower_text :
    lower n.text = n.front.text ++ (n.parts.text ++ '/' :: (lower n.attr ++ n.modifier.text)) := by
  unfold text
  rw [lower_append,n.lowerBefore,List.append_assoc,← n.lowerBehind,← lower_append]
  rfl

/-- Nothing stands behind the attribute, or a modifier with its only mark in front. -/
theorem behind_cases : n.behind = [] ∨ ∃ t, n.behind = '#' :: t ∧ '#' ∉ t := by
  have hlow := n.lowerBehind
  cases hb : n.behind with
  | nil => exact .inl rfl
  | cons c t =>
    refine .inr ⟨t,?_,?_⟩
    · rw [hb] at hlow
      cases hm : n.modifier with
      | absent =>
        rw [hm] at hlow
        cases hlow
      | yes =>
        rw [hm] at hlow
        rw [toLower_eq (List.cons.inj hlow).1 (by decide)]
      | no =>
        rw [hm] at hlow
        rw [toLower_eq (List.cons.inj hlow).1 (by decide)]
    · intro h
      have hmem : '#' ∈ lower t := List.mem_map.mpr ⟨'#',h,rfl⟩
      rw [hb] at hlow
      cases hm : n.modifier with
      | absent =>
        rw [hm] at hlow
        cases hlow
      | yes =>
        rw [hm] at hlow
        rw [show lower t = dbaseYes from (List.cons.inj hlow).2] at hmem
        exact absurd hmem (by decide)
      | no =>
        rw [hm] at hlow
        rw [show lower t = dbaseNo from (List.cons.inj hlow).2] at hmem
        exact absurd hmem (by decide)

theorem before_noHash : '#' ∉ n.before := by
  intro h
  have hmem : '#' ∈ lower n.before := List.mem_map.mpr ⟨'#',h,rfl⟩
  rw [n.lowerBefore,List.mem_append] at hmem
  rcases hmem with hm | hm
  · cases hf : n.front with
    | bare =>
      rw [hf] at hm
      cases hm
    | slashes =>
      rw [hf] at hm
      exact absurd hm (by decide)
    | tango =>
      rw [hf] at hm
      exact absurd hm (by decide)
  · exact Parts.plain_hash n.proper n.plain hm

end AttributeName

section Parse
variable {w : World} {p : AttributeProxy} {n : AttributeName}

/-- What the parser has after the place, with the rest of the name as the device name. -/
def AttributeProxy.placed (p : AttributeProxy) (address : Option Address) (rest : Text) : AttributeProxy :=
  match address with
  | none => { p with deviceName := rest, fromEnvVar := true, portNum := 0, host := fromIor, port := fromIor }
  | some a =>
    if p.dbaseUsed = true then
      { p with
        dbHost := a.host, dbPort := a.port, dbPortNum := streamInt a.port, deviceName := rest, fromEnvVar := false,
        portNum := 0, port := fromIor, host := fromIor }
    else
      { p with
        host := a.host, port := a.port, portNum := streamInt a.port, deviceName := rest, dbHost := notUsed,
        dbPort := notUsed, dbPortNum := 0 }

/-- The first slash of a name with plain words without an address. -/
theorem named_front {x : Named} (hp : x.Proper) (hw : x.Plain) (t : Text) :
    ∃ e r, x.text ++ '/' :: t = e ++ '/' :: r ∧ '/' ∉ e ∧ ':' ∉ e := by
  cases x with
  | device a b m =>
    refine ⟨a,b ++ '/' :: (m ++ '/' :: t),by simp [Named.text],hp.1.2,?_⟩
    exact fun h => word_ne (hw.1 _ h) (by decide) rfl
  | devAlias y => exact ⟨y,t,rfl,hp.2.1,hp.2.2.1⟩

theorem parsePlace_parts {parts : Parts} {b : Bool} (hp : parts.Proper b) (hw : parts.Plain) (hb : p.dbaseUsed = b)
    (t : Text) : parsePlace p (parts.text ++ '/' :: t) = .ok (p.placed parts.address (parts.named.text ++ '/' :: t)) := by
  obtain ⟨address,x⟩ := parts
  unfold parsePlace AttributeProxy.placed
  cases address with
  | none =>
    have hd : p.dbaseUsed = true := by
      by_contra hn
      have hsome := (hp.noDbase (hb ▸ Bool.eq_false_iff.mpr hn)).1
      cases hsome
    obtain ⟨e,r,hcut,he,hc⟩ := named_front hp.named hw.1 t
    have htext : (Parts.mk none x).text ++ '/' :: t = e ++ '/' :: r := hcut
    rw [if_pos hd,htext,idxOf?_append_sep he]
    dsimp only
    rw [substr_front,ok_bind,List.idxOf?_eq_none_iff.mpr hc,hcut]
  | some a =>
    obtain ⟨hhost,-,hdig⟩ := hp.address a rfl
    have hport : '/' ∉ a.port := fun hm => absurd (hdig _ hm) (by decide)
    have htext : (Parts.mk (some a) x).text ++ '/' :: t = a.text ++ '/' :: (x.text ++ '/' :: t) := by
      simp [Parts.text]
    rw [htext]
    dsimp only
    by_cases hd : p.dbaseUsed = true
    · rw [if_pos hd,if_pos hd,Address.cut hhost.2.1 hport]
      dsimp only
      rw [substr_front,ok_bind,Address.text,idxOf?_append_sep hhost.2.2]
      dsimp only
      rw [substr_front,ok_bind,substr_after,ok_bind,← Address.text,substr_after,ok_bind]
    · have hcolon : (a.text ++ '/' :: (x.text ++ '/' :: t)).idxOf? ':' = some a.host.length := by
        rw [Address.text,List.append_assoc]
        exact idxOf?_append_sep hhost.2.2 _
      have hfront : substr (a.text ++ '/' :: (x.text ++ '/' :: t)) 0 (some a.host.length) = .ok a.host := by
        rw [Address.text,List.append_assoc]
        exact substr_front ..
      rw [if_neg hd,if_neg hd,hcolon]
      dsimp only
      rw [hfront,ok_bind,Address.cut hhost.2.1 hport]
      dsimp only
      rw [substr_port,ok_bind,substr_after,ok_bind]

/-- The device of an attribute name: behind an address, an alias keeps the address. -/
def Parts.deviceName (parts : Parts) : Text :=
  match parts.address,parts.named with
  | some a,.devAlias y => a.text ++ '/' :: y
  | _,x => x.text

/-- Between the last slash and the modifier stands the attribute, as it is written. -/
theorem attr_cut (n : AttributeName) :
    substr n.text (n.before.length + 1) ((rfind ['#'] n.text).bind (countTo · (n.before.length + 1))) = .ok n.attr := by
  have hdrop : n.text.drop (n.before.length + 1) = n.attr ++ n.behind := drop_after ..
  have hle : ¬ n.text.length < n.before.length + 1 := by
    rw [AttributeName.text,List.length_append,List.length_cons]
    omega
  rcases n.behind_cases with hb | ⟨t,hb,ht⟩
  · have hnone : rfind ['#'] n.text = none := by
      refine rfind_none ?_
      rw [AttributeName.text,hb,List.append_nil,List.mem_append,List.mem_cons]
      rintro (h | h | h)
      · exact n.before_noHash h
      · cases h
      · exact n.attr_noHash h
    unfold substr
    rw [hnone,if_neg hle,hdrop,hb,List.append_nil,Option.bind_none,Option.getD_none]
    rw [List.take_of_length_le]
    rw [AttributeName.text,List.length_append,List.length_cons,List.length_append]
    omega
  · have hsome : rfind ['#'] n.text = some (n.before.length + 1 + n.attr.length) := by
      have htext : n.text = (n.before ++ '/' :: n.attr) ++ '#' :: t := by
        rw [AttributeName.text,hb]
        simp
      rw [htext,rfind_last ht]
      simp
      omega
    unfold substr countTo
    rw [hsome,if_neg hle,hdrop,hb,Option.bind_some,if_neg (by omega),Option.getD_some,Nat.add_sub_cancel_left,
      List.take_left]

/-- What the parser sets for a device and its attribute. -/
def AttributeProxy.fielded (q : AttributeProxy) (n : AttributeName) : AttributeProxy :=
  { q with
    deviceName := n.parts.deviceName
    aliasName := if n.parts.named.isAlias = true then n.parts.deviceName else q.aliasName
    attrName := n.attr }

theorem parseFields_named {q : AttributeProxy} {t : Text} (ht : '/' ∉ t)
    (hdev : q.deviceName = n.parts.named.text ++ '/' :: t)
    (halias : n.parts.named.isAlias = true → q.dbHost ≠ notUsed ∧ q.fromEnvVar = n.parts.address.isNone) :
    parseFields q n.text (n.parts.text ++ '/' :: t) (if n.parts.named.isAlias = true then 1 else 3)
      (n.parts.named.text.length + 1) = .ok (q.fielded n) := by
  have hfront : substr q.deviceName 0 (some (n.parts.named.text.length + 1 - 1)) = .ok n.parts.named.text := by
    rw [hdev,Nat.add_sub_cancel]
    exact substr_front ..
  have hlast : rfind ['/'] n.text = some n.before.length := by
    refine rfind_last ?_
    rw [List.mem_append]
    rintro (h | h)
    · exact n.attr_noSlash h
    · exact n.behind_noSlash h
  unfold parseFields AttributeProxy.fielded Parts.deviceName
  rw [hfront,ok_bind,hlast]
  dsimp only
  rw [attr_cut]
  cases hx : n.parts.named with
  | device a b m =>
    have hf : (Named.device a b m).isAlias ≠ true := Bool.false_ne_true
    rw [if_neg hf,if_neg hf,if_neg (by decide),ok_bind]
    cases n.parts.address <;> rfl
  | devAlias y =>
    rw [hx] at halias
    obtain ⟨hne,henv⟩ := halias rfl
    have hf : (Named.devAlias y).isAlias = true := rfl
    rw [if_pos hf,if_pos hf,if_pos rfl,if_neg hne]
    cases ha : n.parts.address with
    | none =>
      rw [ha] at henv
      rw [if_neg (by rw [henv]; decide),ok_bind]
      rfl
    | some a =>
      rw [ha] at henv
      have hown : q.fromEnvVar = false := henv
      have hcut : rfind ['/'] (n.parts.text ++ '/' :: t) = some n.parts.text.length := rfind_last ht
      have htext : n.parts.text = a.text ++ '/' :: y := by
        unfold Parts.text
        rw [ha,hx]
        rfl
      rw [if_pos hown,hcut,substr_front,ok_bind,ok_bind,htext]
      rfl

/-- A host in lower case is not the word for one that is not used. -/
theorem host_used {a : Address} (ha : n.parts.address = some a) : a.host ≠ notUsed := by
  have hpart : lower a.host = a.host := by
    have htext : lower n.before = n.front.text ++ (a.host ++ (':' :: a.port ++ '/' :: n.parts.named.text)) := by
      rw [n.lowerBefore,Parts.text,ha]
      simp [Address.text]
    exact lower_part htext
  intro h
  rw [h] at hpart
  exact absurd hpart (by decide)

/-- What a new proxy is after the parser. -/
def AttributeProxy.parsed (p : AttributeProxy) (n : AttributeName) : AttributeProxy :=
  ({ p with dbaseUsed := n.modifier.dbase }.placed n.parts.address
    (n.parts.named.text ++ '/' :: lower n.attr)).fielded n

theorem parseAttributeName_parsed (hp : p.dbHost = []) (n : AttributeName) :
    parseAttributeName w p n.text = .ok (p.parsed n) := by
  have hclear : ':' ∉ '/' :: (lower n.attr ++ n.modifier.text) := by
    rw [List.mem_cons,List.mem_append]
    rintro (h | h | h)
    · cases h
    · exact n.attr_clear (by decide) h
    · exact n.modifier.clear h
  have hread := n.front.read_plain n.proper n.plain hclear
  rw [← n.lower_text] at hread
  have hhash : '#' ∉ n.parts.text ++ '/' :: lower n.attr := by
    rw [List.mem_append,List.mem_cons]
    rintro (h | h | h)
    · exact Parts.plain_hash n.proper n.plain h
    · cases h
    · exact n.attr_clear (by decide) h
  have hmod := @nameWoDbMod_read "AttributeProxy::parse_name" _ hhash n.modifier
  rw [List.append_assoc,List.cons_append] at hmod
  have hslash : '/' ∉ lower n.attr := n.attr_clear (by decide)
  unfold parseAttributeName AttributeProxy.parsed
  rw [nameWoProt_read hread n.lower_text]
  change (Except.mapError _ (nameWoDbMod _ _) >>= _) = _
  rw [hmod]
  change (Except.mapError _ (parsePlace _ _) >>= _) = _
  rw [parsePlace_parts n.proper n.plain rfl]
  generalize hq : AttributeProxy.placed { p with dbaseUsed := n.modifier.dbase } n.parts.address
    (n.parts.named.text ++ '/' :: lower n.attr) = q
  have hdev : q.deviceName = n.parts.named.text ++ '/' :: lower n.attr := by
    rw [← hq]
    unfold AttributeProxy.placed
    cases n.parts.address with
    | none => rfl
    | some a =>
      dsimp only
      split <;> rfl
  have halias : n.parts.named.isAlias = true → q.dbHost ≠ notUsed ∧ q.fromEnvVar = n.parts.address.isNone := by
    intro hx
    have hd : n.modifier.dbase = true := by
      by_contra hn
      rw [(n.proper.noDbase (Bool.eq_false_iff.mpr hn)).2] at hx
      cases hx
    rw [← hq]
    unfold AttributeProxy.placed
    cases ha : n.parts.address with
    | none =>
      refine ⟨?_,rfl⟩
      change p.dbHost ≠ notUsed
      rw [hp]
      decide
    | some a =>
      dsimp only
      rw [if_pos hd]
      exact ⟨host_used ha,rfl⟩
  change (Except.mapError _ (decompose true q.deviceName 0 0) >>= _) = _
  rw [hdev,decompose_named n.proper.named n.lower_attr_ne hslash]
  change (if 1 < (if n.parts.named.isAlias = true then 1 else 3) ∧ (if n.parts.named.isAlias = true then 1 else 3) ≠ 3
    then _ else if (if n.parts.named.isAlias = true then 1 else 3) = 0 then _ else _) = _
  rw [if_neg (by split <;> simp),if_neg (by split <;> simp),parseFields_named hslash hdev halias]
  rfl

end Parse

end CppTango.Client.Names
