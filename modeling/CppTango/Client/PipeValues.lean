import CppTango.Client.PipeBlob
import CppTango.Lib.Memory

namespace CppTango.Client.Pipe

open CppTango.Lib

/-- A blob that holds its arrays by value. -/
abbrev Blob := DevicePipeBlob Elts Elts

/-- What is inserted: a value, or the insert array of a blob, which may have none. -/
inductive Inserted
  | datum (x : Datum)
  | blob (name : String) (es : Option Elts)

def DevPipeDataElt.put : Inserted → DevPipeDataElt → DevPipeDataElt
  | .datum x,e => e.store x
  | .blob name (some es),e => e.storeBlob name es
  | .blob _ none,e => e

section Operators

/-- An insertion, with the flag of its failure. A blob without an insert array is passed over. -/
def put (x : Inserted) (b : Blob) : Blob × Option Flag :=
  match b.insertAt (b.insertEltArray.map List.length) with
  | .error f => (b.noted (some f),some f)
  | .ok ind =>
    match x with
    | .blob _ none => (b.noted none,none)
    | x =>
      let stored := b.insertEltArray.map (fun es => if ind < 0 then es else es.modify ind.toNat (DevPipeDataElt.put x))
      ({ (b.noted none).inserted with insertEltArray := stored },none)

/-- An extraction, with what it finds. -/
def take (t : ExtractType) (b : Blob) : Blob × Found :=
  match b.extractAt (b.extractEltArray.map List.length) with
  | .error f => (b.noted (some f),.failed f)
  | .ok ind =>
    match eltAt (b.extractEltArray.getD []) ind with
    | none => (b.noted none,.outside)
    | some e =>
      match look t e with
      | .failed f => (b.noted (some f),.failed f)
      | .nothing => (b.noted none,.nothing)
      | .outside => (b.noted none,.outside)
      | .got x =>
        let left := b.extractEltArray.map (fun es => es.modify ind.toNat (DevPipeDataElt.left t))
        ({ (b.noted none).extracted with extractEltArray := left },.got x)

/-- `operator[]`, when it does not throw. -/
def named (na : String) (b : Blob) : Option Blob :=
  match b.index b.extractEltArray b.insertEltArray na with
  | (b,none) => some b
  | (_,some _) => none

end Operators

section Building

/-- One insertion after the other, by name with `[]` or in order; `none` when one fails. -/
def putAll (byName : Bool) : List (String × Inserted) → Blob → Option Blob
  | [],b => some b
  | (na,x) :: rest,b =>
    (if byName then named na b else some b).bind fun b =>
      match put x b with
      | (b,none) => putAll byName rest b
      | (_,some _) => none

/-- The insert array of a new blob after the setting of the names and the insertions. -/
def build (names : List String) (byName : Bool) (puts : List (String × Inserted)) : Option Elts :=
  match DevicePipeBlob.namedElts names with
  | .error _ => none
  | .ok es =>
    (putAll byName puts { (DevicePipeBlob.new "" : Blob).restarted with insertEltArray := some es }).bind
      DevicePipeBlob.insertEltArray

/-- A tree of blobs with the insertions that make it: a value, or a blob of some names with what is inserted into it, by
name or in order. -/
inductive Item
  | datum (x : Datum)
  | blob (name : String) (names : List String) (byName : Bool) (puts : List (String × Item))

mutual

/-- What is inserted for an item, once the blobs in it are built. -/
def Item.inserted : Item → Inserted
  | .datum x => .datum x
  | .blob name names byName puts => .blob name (build names byName (insertedAll puts))

def insertedAll : List (String × Item) → List (String × Inserted)
  | [] => []
  | (na,x) :: rest => (na,x.inserted) :: insertedAll rest

end

/-- The element that each insertion goes to. -/
def places (names : List String) (byName : Bool) (puts : List (String × Item)) : List (Nat × Item) :=
  if byName then
    puts.filterMap (fun p =>
      (DevicePipeBlob.indFromName (names.map (fun n => DevicePipeBlob.emptyElt (cString n))) p.1).map (·,p.2))
  else puts.zipIdx.map (fun p => (p.2,p.1.2))

/-- The item that was inserted last into each element. -/
def lasts (names : List String) (byName : Bool) (puts : List (String × Item)) : Nat → Option Item :=
  writeAll ((places names byName puts).map (fun p => (p.1,some p.2))) (fun _ => none)

/-- The type that an item is extracted with, if there is an extraction operator. -/
def Item.type : Item → Option ExtractType
  | .datum (.scalar k _) => some (.scalar k)
  | .datum (.devString _) => some .devString
  | .datum (.vector k _) => if h : k ≠ .encoded then some (.vector k h) else none
  | .datum (.devStringVector _) => none
  | .datum (.seqRef k _) | .datum (.seqPtr k _) => some (.seqPtr k)
  | .blob _ _ _ _ => some .blob

/-- What the extraction of an item is to find. -/
def Item.value : Item → Extracted
  | .datum (.scalar k x) => .scalar k x
  | .datum (.devString x) => .scalar .string x
  | .datum (.vector k xs) | .datum (.seqRef k xs) | .datum (.seqPtr k xs) => .array k xs
  | .datum (.devStringVector xs) => .array .string xs
  | .blob name _ _ _ => .blob name

/-- The type that is to be told of an item. -/
def Item.told : Item → CmdArgType
  | .datum (.scalar k _) => scalarType k
  | .datum (.devString _) => .devString
  | .datum (.vector k _) | .datum (.seqRef k _) | .datum (.seqPtr k _) => arrayType k
  | .datum (.devStringVector _) => .devVarStringArray
  | .blob _ _ _ _ => .devPipeBlob

/-- The names are there and differ, and every element gets a value; in order each gets one. -/
structure Filled (names : List String) (byName : Bool) (puts : List (String × Item)) : Prop where
  some : names ≠ []
  distinct : (names.map Device.lowerName).Nodup
  found : byName = true → ∀ p ∈ puts, (DevicePipeBlob.indFromName
    (names.map (fun n => DevicePipeBlob.emptyElt (cString n))) p.1).isSome = true
  inOrder : byName = false → puts.length = names.length
  all : ∀ i, i < names.length → (lasts names byName puts i).isSome = true

mutual

/-- Every value in the tree has an extraction operator, and every blob is filled. -/
def Item.Valid : Item → Prop
  | .datum x => (Item.type (.datum x)).isSome = true
  | .blob _ names byName puts => Filled names byName puts ∧ ValidAll puts

def ValidAll : List (String × Item) → Prop
  | [] => True
  | (_,x) :: rest => x.Valid ∧ ValidAll rest

end

end Building

section Reading

/-- Extractions in order. -/
def takes : List ExtractType → Blob → List Found
  | [],_ => []
  | t :: ts,b => (take t b).2 :: takes ts (take t b).1

/-- Extractions by name, each after its `[]`; `none` where that throws. -/
def takesByName : List (String × ExtractType) → Blob → List (Option Found)
  | [],_ => []
  | (na,t) :: rest,b =>
    match named na b with
    | none => [none]
    | some b => some (take t b).2 :: takesByName rest (take t b).1

/-- A description is refused with the exception of the code. -/
def Refused {α : Type} (r : Except PipeError α) : Prop := ∃ reason desc, r = .error (.devFailed reason desc)

/-- What is received from an array that was built with these insertions; the target may have been used before. -/
structure RoundTrip (names : List String) (byName : Bool) (puts : List (String × Item)) (es : Elts) : Prop where
  ordered : ∀ (target : Blob) (name : String) (items : List (ExtractType × Item)), target.insertEltArray = none →
    items.map (fun p => some p.2) = (List.range names.length).map (lasts names byName puts) →
    (∀ p ∈ items, p.2.type = some p.1) →
    takes (items.map Prod.fst) (target.targeted es name) = items.map (fun p => .got p.2.value)
  bracketed : ∀ (target : Blob) (name : String) (reads : List (Nat × String × ExtractType × Item)),
    target.insertEltArray = none → (reads.map Prod.fst).Nodup →
    (∀ r ∈ reads, DevicePipeBlob.indFromName es r.2.1 = some r.1 ∧ lasts names byName puts r.1 = some r.2.2.2 ∧
      r.2.2.2.type = some r.2.2.1) →
    takesByName (reads.map (fun r => (r.2.1,r.2.2.1))) (target.targeted es name) =
      reads.map (fun r => some (.got r.2.2.2.value))
  nested : ∀ i name inner by' puts', lasts names byName puts i = some (.blob name inner by' puts') →
    ∃ e, es[i]? = some e ∧ build inner by' (insertedAll puts') = some e.innerBlob
  others : ∀ i item e t, lasts names byName puts i = some item → es[i]? = some e → item.type ≠ some t →
    ∃ f, look t e = .failed f
  types : ∀ i item e, lasts names byName puts i = some item → es[i]? = some e → eltType e = .ok item.told
  refused : ∀ i : Nat, (Refused (getDataEltName (some es) i) ↔ getDataEltNb (some es) none ≤ i) ∧
    (Refused (getDataEltType (some es) i) ↔ getDataEltNb (some es) none ≤ i)

/-- The blobs of a tree, by the insertions into each. -/
inductive Within : List String → Bool → List (String × Item) → List String → Bool → List (String × Item) →
    Prop
  | self (names : List String) (byName : Bool) (puts : List (String × Item)) :
      Within names byName puts names byName puts
  | inner {names inner names' : List String} {byName innerBy by' : Bool}
      {puts innerPuts puts' : List (String × Item)} {na name : String}
      (mem : (na,.blob name inner innerBy innerPuts) ∈ puts)
      (within : Within inner innerBy innerPuts names' by' puts') : Within names byName puts names' by' puts'

/-- Every blob of the tree is built and read back. -/
def RoundTrips (names : List String) (byName : Bool) (puts : List (String × Item)) : Prop :=
  ∀ names' by' puts', Within names byName puts names' by' puts' →
    ∃ es, build names' by' (insertedAll puts') = some es ∧ RoundTrip names' by' puts' es

end Reading

end CppTango.Client.Pipe
