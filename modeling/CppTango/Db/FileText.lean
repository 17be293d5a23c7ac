import CppTango.Db.FileDatabase

namespace CppTango.Db

open CppTango.Lib CppTango.Device

/-- The text of a file, or what is left of it. While a file is read the first two characters are
`CurrentChar` and `NextChar`; behind the end both are 0. -/
abbrev Text := List Char

section Write

/-- `escape_double_quote`. -/
def escapeDoubleQuote (value : Text) : Text :=
  value.flatMap (fun c => if c = '"' then ['\\',c] else [c])

def writeStringValue (value : String) : Text :=
  let hasDoubleQuotes := '"' ∈ value.toList
  let quote : Text := if ' ' ∈ value.toList ∨ '\n' ∈ value.toList ∨ hasDoubleQuotes then ['"'] else []
  quote ++ (if hasDoubleQuotes then escapeDoubleQuote value.toList else value.toList) ++ quote

/-- A value on a line of its own behind the one before it. -/
def nextLine (margin : Nat) (value : Text) : Text := ",\\\n".toList ++ List.replicate margin ' ' ++ value

/-- The values of one property. -/
def writeValues (margin : Nat) : List String → Text
  | [] => []
  | v :: vs => writeStringValue v ++ vs.flatMap (fun v => nextLine margin (writeStringValue v))

/-- The values of a class property: an empty text is quoted when it is the first one. -/
def writeClassValues (margin : Nat) : List String → Text
  | [] => []
  | v :: vs => (if v = "" then "\"\"".toList else writeStringValue v) ++
      vs.flatMap (fun v => nextLine margin (writeStringValue v))

def quotedName (name : String) : Text := ['"'] ++ name.toList ++ ['"']

/-- The name of a property in the file. -/
def propHead (owner : Text) (p : TProperty) : Text := owner ++ "->".toList ++ p.name.toList ++ ": ".toList

/-- The devices of a class; a class without devices has no meaning here. -/
def deviceLine (s : TServer) (c : TTangoClass) : Text :=
  let head := s.name.toList ++ "/".toList ++ s.instanceName.toList ++ "/DEVICE/".toList ++ c.name.toList ++
    ": ".toList
  let margin := s.name.length + 1 + s.instanceName.length + 8 + c.name.length + 2
  head ++ (match c.devices with
    | [] => []
    | d :: ds => quotedName d ++ ds.flatMap (fun d => nextLine margin (quotedName d))) ++ "\n".toList

def classPropLine (c : TTangoClass) (p : TProperty) : Text :=
  propHead ("CLASS/".toList ++ c.name.toList) p ++
    writeClassValues (6 + c.name.length + 2 + p.name.length + 2) p.value ++ "\n".toList

def classAttLine (c : TTangoClass) (a : TAttributeProperty) (p : TProperty) : Text :=
  propHead ("CLASS/".toList ++ c.name.toList ++ "/".toList ++ a.attributeName.toList) p ++
    writeValues (6 + c.name.length + 1 + a.attributeName.length + 2 + p.name.length + 2) p.value ++
      "\n".toList

def classBlock (c : TTangoClass) : Text :=
  "#############################################\n".toList ++ ("# CLASS ".toList ++ c.name.toList ++ "\n\n".toList) ++
    c.properties.flatMap (classPropLine c) ++ "\n".toList ++
    ("# CLASS ".toList ++ c.name.toList ++ " attribute properties\n\n".toList) ++
    c.attributeProperties.flatMap (fun a => a.properties.flatMap (classAttLine c a)) ++ "\n".toList

def devPropLine (d : TDevice) (p : TProperty) : Text :=
  propHead d.name.toList p ++ writeValues (d.name.length + 1 + p.name.length + 2) p.value ++ "\n".toList

def devAttLine (d : TDevice) (a : TAttributeProperty) (p : TProperty) : Text :=
  propHead (d.name.toList ++ "/".toList ++ a.attributeName.toList) p ++
    writeValues (d.name.length + 1 + a.attributeName.length + 2 + p.name.length + 2) p.value ++ "\n".toList

def deviceBlock (d : TDevice) : Text :=
  ("# DEVICE ".toList ++ d.name.toList ++ " properties \n\n".toList) ++
    d.properties.flatMap (devPropLine d) ++ "\n".toList ++
    ("# DEVICE ".toList ++ d.name.toList ++ " attribute properties\n\n".toList) ++
    d.attributeProperties.flatMap (fun a => a.properties.flatMap (devAttLine d a))

def freeLine (o : TFreeObject) (p : TProperty) : Text :=
  propHead ("FREE/".toList ++ o.name.toList) p ++
    writeValues (5 + o.name.length + 2 + p.name.length + 2) p.value ++ "\n".toList

/-- `write_file`. -/
def writeFile (s : TServer) : Text :=
  s.classes.flatMap (deviceLine s) ++ "\n".toList ++ s.classes.flatMap classBlock ++ "\n".toList ++
    s.devices.flatMap deviceBlock ++
    "#############################################\n# FREE OBJECT attributes\n\n".toList ++
    s.freeObjects.flatMap (fun o => o.properties.flatMap (freeLine o))

end Write

section Lex

/-- `_TG_STRING` and the other kinds of words. -/
inductive Lex where
  | none | string | slash | aslash | coma | colon | arrow
deriving DecidableEq, Repr

/-- Ways to refuse a file; `nullDevice` is the use of a device that was not found. -/
inductive ParseError where
  | emptyFile | badLex | stringTooLong | colonOrArrowExpected | slashOrArrowExpected | invalidResourceName
  | invalidClassProperty (domain family member : String)
  | nullDevice | unfinished
deriving DecidableEq, Repr

def classLex (word : String) : Lex :=
  if word = "" then .none
  else if word = "/" then .slash
  else if word = "\\" then .aslash
  else if word = "," then .coma
  else if word = ":" then .colon
  else if word = "->" then .arrow
  else .string

def lexicalWordNull : String := "NULL"

/-- `CurrentChar`. -/
def currentChar (t : Text) : Char := t.headD '\x00'

def nextChar (t : Text) : Char := t.tail.headD '\x00'

/-- A `char` has a sign: what is not ASCII is neither a space nor part of a word. -/
def isBlank (c : Char) : Bool := 0 < c.toNat && c.toNat ≤ 32

def isBlack (c : Char) : Bool := 32 < c.toNat && c.toNat < 128

def jumpSpace (t : Text) : Text := t.dropWhile isBlank

def jumpLine (t : Text) : Text := (t.dropWhile (fun c => c ≠ '\n' && c ≠ '\x00')).tail

/-- The loop over comment lines, each of them at least one character. -/
def jumpComments : Nat → Text → Text
  | 0,t => t
  | n + 1,t => if currentChar t = '#' then jumpComments n (jumpSpace (jumpLine t)) else t

/-- `/*` and the character behind it are jumped over, nothing else of a comment is. -/
def jumpCComment (t : Text) : Option Text :=
  if currentChar t = '/' then
    if nextChar t = '*' then some (jumpSpace (t.drop 3)) else none
  else some t

/-- The last loop of `read_word`. -/
def wordChars : Text → Text × Text
  | [] => ([],[])
  | c :: t =>
    if isBlack c ∧ c ≠ ':' ∧ c ≠ '/' ∧ c ≠ '\\' ∧ c ≠ ',' ∧ ¬ (c = '-' ∧ currentChar t = '>') then
      (c :: (wordChars t).1,(wordChars t).2)
    else ([],c :: t)

/-- A text in quotes on one line. -/
def lineString (t : Text) : Except ParseError (String × Text) :=
  let rest := t.dropWhile (fun c => c ≠ '"' && c ≠ '\x00' && c ≠ '\n')
  if currentChar rest = '"' then
    .ok (String.ofList (t.takeWhile (fun c => c ≠ '"' && c ≠ '\x00' && c ≠ '\n')),rest.tail)
  else .error .badLex

/-- `read_word` behind spaces and comment lines. -/
def readToken (t : Text) : Except ParseError (String × Text) :=
  match jumpCComment t with
  | none => .ok ("/",t.tail)
  | some t =>
    let c := currentChar t
    if c = ':' ∨ c = '/' ∨ c = ',' ∨ c = '\\' then .ok (String.ofList [c],t.tail)
    else if c = '-' ∧ nextChar t = '>' then .ok ("->",t.drop 2)
    else if c = '"' then lineString t.tail
    else
      let word := (wordChars t).1
      .ok (if word = [] then lexicalWordNull else String.ofList word,(wordChars t).2)

def readWord (t : Text) : Except ParseError (String × Text) :=
  readToken (jumpComments t.length (jumpSpace t))

/-- A text in quotes, which a backslash takes out of the next character. -/
def fullString : Text → Option (Text × Text)
  | [] => none
  | '"' :: t => some ([],t)
  | '\\' :: c :: t => (fullString t).map (fun (w,t) => (c :: w,t))
  | c :: t => if c = '\x00' then none else (fullString t).map (fun (w,t) => (c :: w,t))

def readFullWord (t : Text) : Except ParseError (String × Text) :=
  let t := jumpSpace t
  let c := currentChar t
  if c = ',' ∨ c = '\\' then .ok (String.ofList [c],t.tail)
  else if c = '"' then
    match fullString t.tail with
    | none => .error .stringTooLong
    | some (word,t) => .ok (if word = [] then lexicalWordNull else String.ofList word,t)
  else
    let word := t.takeWhile (fun c => isBlack c && c ≠ '\\' && c ≠ ',')
    .ok (if word = [] then lexicalWordNull else String.ofList word,
      t.dropWhile (fun c => isBlack c && c ≠ '\\' && c ≠ ','))

/-- A word that `CHECK_LEX` lets pass. -/
def expect (lex : Lex) (t : Text) : Except ParseError (String × Text) := do
  let (word,t) ← readWord t
  if classLex word = lex then pure (word,t) else throw .badLex

/-- One turn of the loop in `parse_resource_value`: a value, and the word behind it. -/
def parseOneValue (t : Text) : Except ParseError (String × String × Text) := do
  let (value,t) ← readFullWord t
  let (value,t) ← if classLex value = .aslash then readFullWord t else pure (value,t)
  if classLex value = .string then
    let (word,t) ← readWord t
    pure (value,word,t)
  else throw .badLex

/-- The loop; its first argument bounds the number of values. -/
def parseValues : Nat → Text → Except ParseError (List String × String × Text)
  | 0,_ => throw .unfinished
  | n + 1,t => do
    let (value,word,t) ← parseOneValue t
    if classLex word = .coma ∨ classLex word = .aslash then
      let (values,word,t) ← parseValues n t
      pure (value :: values,word,t)
    else pure ([value],word,t)

/-- `parse_resource_value`, behind `word`. -/
def parseResourceValue (word : String) (t : Text) : Except ParseError (List String × String × Text) :=
  if word = "" then pure ([],word,t) else parseValues (t.length + 1) t

end Lex

section Parse

/-- What a statement of the file says. -/
def defineClass (s : TServer) (instanceName name : String) (devices : List String) : TServer :=
  { s with
    instanceName := instanceName
    classes := s.classes ++ [⟨⟨name,[],[]⟩,devices⟩]
    devices := s.devices ++ devices.map (fun d => ⟨d,[],[]⟩) }

/-- A property of an attribute: the attribute is added when it is new. -/
def addAttProp (attName : String) (p : TProperty) (atts : List TAttributeProperty) :
    List TAttributeProperty :=
  putFirst (hasAttributeName attName) (fun a => { a with properties := a.properties ++ [p] }) ⟨attName,[p]⟩ atts

def addClassProp (s : TServer) (className : String) (p : TProperty) : TServer :=
  { s with
    classes := updateFirst (fun c => equalsIgnoreCase c.name className)
      (fun c => { c with properties := c.properties ++ [p] }) s.classes }

def addClassAttProp (s : TServer) (className attName : String) (p : TProperty) : TServer :=
  { s with
    classes := updateFirst (fun c => equalsIgnoreCase c.name className)
      (fun c => { c with attributeProperties := addAttProp attName p c.attributeProperties }) s.classes }

def addDevProp (s : TServer) (devName : String) (p : TProperty) : TServer :=
  { s with
    devices := updateFirst (fun d => equalsIgnoreCase d.name devName)
      (fun d => { d with properties := d.properties ++ [p] }) s.devices }

/-- The device is used without a look whether it was found. -/
def addDevAttProp (s : TServer) (devName attName : String) (p : TProperty) : Except ParseError TServer :=
  if s.devices.any (fun d => equalsIgnoreCase d.name devName) then
    pure { s with
      devices := updateFirst (fun d => equalsIgnoreCase d.name devName)
        (fun d => { d with attributeProperties := addAttProp attName p d.attributeProperties }) s.devices }
  else throw .nullDevice

def addFreeProp (s : TServer) (objName : String) (p : TProperty) : TServer :=
  { s with
    freeObjects := putFirst (fun o => equalsIgnoreCase o.name objName)
      (fun o => { o with properties := o.properties ++ [p] }) ⟨objName,[p]⟩ s.freeObjects }

/-- The server so far, the word that was read last and the text behind it. -/
abbrev Parsed := TServer × String × Text

/-- Behind `->`: the name of a property, a colon and its values. -/
def parseProp (t : Text) : Except ParseError (TProperty × String × Text) := do
  let (propName,t) ← expect .string t
  let (word,t) ← expect .colon t
  let (values,word,t) ← parseResourceValue word t
  pure (⟨propName,values⟩,word,t)

/-- A name of four fields. -/
def parseFour (s : TServer) (domain family member : String) (t : Text) : Except ParseError Parsed := do
  let (name,t) ← expect .string t
  let (word,t) ← readWord t
  match classLex word with
  | .colon =>
    let (values,word,t) ← parseResourceValue word t
    let devices := if equalsIgnoreCase member "device" then values else []
    pure (defineClass s family name devices,word,t)
  | .arrow =>
    let (p,word,t) ← parseProp t
    let s ← addDevAttProp s (domain ++ "/" ++ family ++ "/" ++ member) name p
    pure (s,word,t)
  | _ => throw .colonOrArrowExpected

/-- A name of three fields. -/
def parseThree (s : TServer) (domain family : String) (t : Text) : Except ParseError Parsed := do
  let (member,t) ← expect .string t
  let (word,t) ← readWord t
  match classLex word with
  | .slash => parseFour s domain family member t
  | .arrow =>
    let (p,word,t) ← parseProp t
    if equalsIgnoreCase domain "class" then pure (addClassAttProp s family member p,word,t)
    else pure (addDevProp s (domain ++ "/" ++ family ++ "/" ++ member) p,word,t)
  | _ => throw .slashOrArrowExpected

/-- A property of a class or of a free object; the word behind its name is not looked at. -/
def parseTwo (s : TServer) (domain family : String) (t : Text) : Except ParseError Parsed := do
  let (member,t) ← expect .string t
  let (word,t) ← readWord t
  let (values,word,t) ← parseResourceValue word t
  if equalsIgnoreCase domain "class" then pure (addClassProp s family ⟨member,values⟩,word,t)
  else if equalsIgnoreCase domain "free" then pure (addFreeProp s family ⟨member,values⟩,word,t)
  else throw (.invalidClassProperty domain family member)

/-- One turn of the loop in `parse_res_file`. -/
def parseStatement (s : TServer) (word : String) (t : Text) : Except ParseError Parsed := do
  match classLex word with
  | .string =>
    let domain := word
    let (_,t) ← expect .slash t
    let (family,t) ← expect .string t
    let (word,t) ← readWord t
    match classLex word with
    | .slash => parseThree s domain family t
    | .arrow => parseTwo s domain family t
    | _ => throw .slashOrArrowExpected
  | _ => throw .invalidResourceName

/-- The loop; its first argument bounds the number of statements. -/
def parseLoop : Nat → TServer → String → Text → Except ParseError TServer
  | 0,_,_,_ => throw .unfinished
  | n + 1,s,word,t => do
    let (s,word,t) ← parseStatement s word t
    if word = lexicalWordNull then pure s else parseLoop n s word t

def newServer : TServer := ⟨"","",[],[],[]⟩

/-- The characters that are read: two spaces first, and at the end the last character once more,
as a `get` that fails leaves it. -/
def streamOf (file : Text) : Text := [' ',' '] ++ file ++ [file.getLastD ' ']

/-- `parse_res_file`, for a server that is new. -/
def parseResFile (file : Text) : Except ParseError TServer := do
  let (word,t) ← readWord (streamOf file)
  if word = "" then throw .emptyFile
  else parseLoop (file.length + 1) { newServer with name := word } word t

end Parse

end CppTango.Db
