import CppTango.Client.PipeBlob
import CppTango.Lib.Holders
import CppTango.Lib.Steps

namespace CppTango.Client.Pipe

open CppTango.Lib

/-- A pointer to an element array: an allocated one, one of the inner blobs in it, or one that was never set. -/
inductive Ptr
  | at (base : Nat) (path : List Nat)
  | wild
deriving DecidableEq, Repr

abbrev BlobObject := DevicePipeBlob Nat Ptr

/-- The element arrays that were allocated, and the blob objects. `broken` says that an array was used or released that
was not there. -/
structure World where
  store : Store Elts
  blob : Nat → Option BlobObject
  broken : Bool

namespace World

def empty : World := ⟨.empty,fun _ => none,false⟩

def setBlob (i : Nat) (b : BlobObject) (w : World) : World := { w with blob := Function.update w.blob i (some b) }

def breaks (w : World) : World := { w with broken := true }

section Memory

/-- The elements of the inner blob at a path. -/
def inner : List Nat → Elts → Elts
  | [],es => es
  | i :: path,es =>
    match es[i]? with
    | none => []
    | some e => inner path e.innerBlob

/-- The elements with one element of the inner blob at a path changed. -/
def change (g : DevPipeDataElt → DevPipeDataElt) (ind : Nat) : List Nat → Elts → Elts
  | [],es => es.modify ind g
  | i :: path,es => es.modify i (fun e => { e with innerBlob := change g ind path e.innerBlob })

def elts (w : World) : Ptr → Option Elts
  | .at base path => (w.store.get base).map (inner path)
  | .wild => none

def Ptr.child : Ptr → Nat → Ptr
  | .at base path,ind => .at base (path ++ [ind])
  | .wild,_ => .wild

def write (p : Ptr) (ind : Nat) (g : DevPipeDataElt → DevPipeDataElt) (w : World) : World :=
  match p with
  | .at base path =>
    match w.store.get base with
    | some es => { w with store := w.store.put base (change g ind path es) }
    | none => w.breaks
  | .wild => w.breaks

/-- `delete`: only for an array that was allocated itself, and once. -/
def delete (p : Ptr) (w : World) : World :=
  match p with
  | .at base [] => if (w.store.get base).isSome then { w with store := w.store.release base } else w.breaks
  | _ => w.breaks

def deleteExtract (b : BlobObject) (w : World) : World :=
  if b.extractDelete then
    match b.extractEltArray with
    | none => w
    | some p => w.delete p
  else w

def deleteInsert (b : BlobObject) (w : World) : World :=
  match b.insertEltArray with
  | none => w
  | some a => w.delete (.at a [])

end Memory

section Failures

/-- What the five error helpers and `has_failed` do to the arrays; only `throw_too_many` forgets the insert array. -/
def letGo (forgets : Bool) (i : Nat) (b : BlobObject) (w : World) : World :=
  let w := (w.deleteInsert b).deleteExtract b
  w.setBlob i { b with
    insertEltArray := if forgets then none else b.insertEltArray
    extractDelete := false }

/-- The end of an operation that failed for `f`. -/
def fails (i : Nat) (b : BlobObject) (f : Flag) (w : World) : World :=
  let b := b.noted (some f)
  let w := w.setBlob i b
  if b.exceptionsFlags f then w.letGo (f = .notenoughde) i b else w

def hasFailed (i : Nat) (w : World) : World :=
  match w.blob i with
  | none => w
  | some b => if b.failed then w.letGo false i b else w

end Failures

section Names

def setDataEltNames (i : Nat) (names : List String) (w : World) : World :=
  match w.blob i with
  | none => w
  | some b =>
    match DevicePipeBlob.namedElts names with
    | .error _ => w
    | .ok es =>
      { w with store := w.store.alloc es }.setBlob i { b.restarted with insertEltArray := some w.store.next }

def setDataEltNb (i : Nat) (nb : Nat) (w : World) : World :=
  match w.blob i with
  | none => w
  | some b =>
    { w with store := w.store.alloc (DevicePipeBlob.numberedElts nb) }.setBlob i
      { b.restarted with insertEltArray := some w.store.next }

/-- The name of the next element, which is added when there is none for it. -/
def setCurrentDeltName (i : Nat) (na : String) (w : World) : World :=
  match w.blob i with
  | none => w
  | some b =>
    match b.insertEltArray with
    | none =>
      { w with store := w.store.alloc [DevicePipeBlob.emptyElt (cString na)] }.setBlob i
        { b.restarted with insertEltArray := some w.store.next }
    | some a =>
      match w.store.get a with
      | none => w.breaks
      | some es =>
        let es := if b.insertCtr = es.length then es ++ [DevicePipeBlob.emptyElt ""] else es
        let named (e : DevPipeDataElt) : DevPipeDataElt := { e with name := cString na }
        { w with store := w.store.put a (if b.insertCtr < 0 then es else es.modify b.insertCtr.toNat named) }

/-- `operator[]`. -/
def index (i : Nat) (na : String) (w : World) : World :=
  match w.blob i with
  | none => w
  | some b =>
    match b.extractEltArray.map w.elts with
    | some none => if b.extractCtr > 0 then w else w.breaks
    | extract =>
      match b.getExtractInd extract.join na with
      | .error _ => w
      | .ok b =>
        match b.insertEltArray.map w.store.get with
        | some none => if b.insertCtr > 0 then w.setBlob i b else (w.setBlob i b).breaks
        | insert =>
          match b.getInsertInd insert.join na with
          | .error _ => w.setBlob i b
          | .ok b => w.setBlob i b

end Names

section Operators

/-- An insertion up to the writing of the element; an index beyond the array makes the sequence throw, for a `DevString`
after the counters were changed. -/
def insertWith (i : Nat) (early : Bool) (body : BlobObject → Nat → Nat → World → World) (w : World) : World :=
  match w.blob i with
  | none => w
  | some b =>
    match b.insertEltArray with
    | none => w.fails i b .blobdenamenotset
    | some a =>
      match w.store.get a with
      | none => if b.insertCtr = -1 ∧ b.insertInd = -1 then w.fails i b .mixing else w.breaks
      | some es =>
        match b.insertAt (some es.length) with
        | .error f => w.fails i b f
        | .ok ind =>
          if ind < 0 ∨ es.length ≤ ind then w.setBlob i (if early then (b.noted none).inserted else b.noted none)
          else body (b.noted none) a ind.toNat (w.setBlob i (b.noted none))

def Datum.isDevString : Datum → Bool
  | .devString _ => true
  | _ => false

def insert (i : Nat) (x : Datum) : World → World :=
  insertWith i (Datum.isDevString x)
    (fun b a ind w => (w.write (.at a []) ind (DevPipeDataElt.store x)).setBlob i b.inserted)

/-- The insertion of a blob takes the buffer of its insert array and deletes the array; the blob keeps its pointer. -/
def insertBlob (i source : Nat) : World → World :=
  insertWith i false fun b a ind w =>
    match w.blob source with
    | none => w
    | some d =>
      match d.insertEltArray with
      | none => w
      | some tmp =>
        match w.store.get tmp with
        | none => w.breaks
        | some es =>
          ((w.write (.at a []) ind (DevPipeDataElt.storeBlob d.name es)).setBlob i b.inserted).delete (.at tmp [])

/-- An extraction up to the look at the element. -/
def extractWith (i : Nat) (t : ExtractType) (body : BlobObject → Ptr → Nat → DevPipeDataElt → World → World)
    (w : World) : World :=
  match w.blob i with
  | none => w
  | some b =>
    match b.extractEltArray with
    | none => w.fails i b .isempty
    | some p =>
      match w.elts p with
      | none => w.breaks
      | some es =>
        match b.extractAt (some es.length) with
        | .error f => w.fails i b f
        | .ok ind =>
          match eltAt es ind with
          | none => w.setBlob i (b.noted none)
          | some e =>
            match look t e with
            | .failed f => w.fails i b f
            | .nothing | .outside => w.setBlob i (b.noted none)
            | .got _ => body (b.noted none) p ind.toNat e (w.setBlob i (b.noted none))

/-- The extraction of a value. -/
def extract (i : Nat) (t : ExtractType) : World → World :=
  extractWith i t (fun b p ind _ w =>
    (match t with
      | .seqPtr _ => w.write p ind (DevPipeDataElt.left t)
      | _ => w).setBlob i b.extracted)

/-- The extraction of a blob sets the extract pointer of its target to the inner blob, whatever the target held before;
the name is read through the pointer of the blob itself, which is another one when it is its own target. -/
def extractBlob (i target : Nat) : World → World :=
  extractWith i .blob fun _ p ind _ w =>
    match w.blob target with
    | none => w
    | some d =>
      let w := w.setBlob target { d with extractEltArray := some (Ptr.child p ind) }
      let own := (w.blob i).bind (fun b => b.extractEltArray.bind w.elts)
      match own.bind (fun es => es[ind]?) with
      | none => w
      | some e =>
        let w := w.setBlob target (d.targeted (Ptr.child p ind) e.innerBlobName)
        match w.blob i with
        | none => w
        | some b => w.setBlob i b.extracted

end Operators

section Objects

/-- A new object. -/
def make (i : Nat) (name : String) (w : World) : World :=
  match w.blob i with
  | some _ => w
  | none => w.setBlob i (.new name)

/-- A blob as it is received from a device: a new object that owns the array to be extracted. -/
def receive (i : Nat) (name : String) (es : Elts) (w : World) : World :=
  match w.blob i with
  | some _ => w
  | none =>
    { w with store := w.store.alloc es }.setBlob i
      { (DevicePipeBlob.new name : BlobObject) with
        extractEltArray := some (.at w.store.next [])
        extractDelete := true }

def exceptions (i : Nat) (fl : Flag → Bool) (w : World) : World :=
  match w.blob i with
  | none => w
  | some b => w.setBlob i { b with exceptionsFlags := fl }

/-- A new array with the elements of the insert array of a blob, if it has one. -/
def copyInsert (s : BlobObject) (w : World) : Option Nat × World :=
  match s.insertEltArray with
  | none => (none,w)
  | some a =>
    match w.store.get a with
    | none => (none,w.breaks)
    | some es => (some w.store.next,{ w with store := w.store.alloc es })

def copyExtract (p : Ptr) (w : World) : Ptr × World :=
  match w.elts p with
  | none => (.wild,w.breaks)
  | some es => (.at w.store.next [],{ w with store := w.store.alloc es })

/-- The copy and the move constructor. Without an extract array of the source the pointer is not initialised. -/
def construct (i source : Nat) (w : World) : World :=
  match w.blob i,w.blob source with
  | none,some s =>
    let (ins,w) := w.copyInsert s
    match s.extractEltArray with
    | none => w.setBlob i { s with insertEltArray := ins, extractEltArray := some .wild }
    | some p =>
      let (ext,w) := w.copyExtract p
      w.setBlob i { s with insertEltArray := ins, extractEltArray := some ext, extractDelete := true }
  | _,_ => w

def copyConstruct : Nat → Nat → World → World := construct

/-- The name of the source is moved away. -/
def moveConstruct (i source : Nat) (w : World) : World :=
  match w.blob i,w.blob source with
  | none,some s => ((construct i source w).setBlob source { s with name := "" })
  | _,_ => w

/-- The copy assignment: an extract array of the target stays when the source has none, and goes lost otherwise. -/
def assign (i source : Nat) (w : World) : World :=
  match w.blob i,w.blob source with
  | some b,some s =>
    if i = source then w
    else
      let (ins,w) := w.copyInsert s
      match s.extractEltArray with
      | none => w.setBlob i { s with insertEltArray := ins, extractEltArray := b.extractEltArray }
      | some p =>
        let (ext,w) := w.copyExtract p
        w.setBlob i { s with insertEltArray := ins, extractEltArray := some ext, extractDelete := true }
  | _,_ => w

/-- The move assignment. Where the source has no array, the target keeps its pointer. -/
def moveAssign (i source : Nat) (w : World) : World :=
  match w.blob i,w.blob source with
  | some b,some s =>
    let w := w.deleteExtract b
    let moved := { s with
      insertEltArray := s.insertEltArray.or b.insertEltArray
      extractEltArray := s.extractEltArray.or b.extractEltArray }
    let emptied := { s with name := "", insertEltArray := none, extractEltArray := none }
    if i = source then w.setBlob i { emptied with name := s.name }
    else (w.setBlob i moved).setBlob source emptied
  | _,_ => w

def destroy (i : Nat) (w : World) : World :=
  match w.blob i with
  | none => w
  | some b => { w.deleteExtract b with blob := Function.update w.blob i none }

end Objects

end World

/-- The operations on the objects of a program, each object by its number. -/
inductive Op
  | make (i : Nat) (name : String)
  | receive (i : Nat) (name : String) (es : Elts)
  | exceptions (i : Nat) (fl : Flag → Bool)
  | setDataEltNames (i : Nat) (names : List String)
  | setDataEltNb (i : Nat) (nb : Nat)
  | setCurrentDeltName (i : Nat) (na : String)
  | index (i : Nat) (na : String)
  | insert (i : Nat) (x : Datum)
  | insertBlob (i source : Nat)
  | extract (i : Nat) (t : ExtractType)
  | extractBlob (i target : Nat)
  | hasFailed (i : Nat)
  | copyConstruct (i source : Nat)
  | moveConstruct (i source : Nat)
  | assign (i source : Nat)
  | moveAssign (i source : Nat)
  | destroy (i : Nat)

def step (w : World) : Op → World
  | .make i name => w.make i name
  | .receive i name es => w.receive i name es
  | .exceptions i fl => w.exceptions i fl
  | .setDataEltNames i names => w.setDataEltNames i names
  | .setDataEltNb i nb => w.setDataEltNb i nb
  | .setCurrentDeltName i na => w.setCurrentDeltName i na
  | .index i na => w.index i na
  | .insert i x => w.insert i x
  | .insertBlob i source => w.insertBlob i source
  | .extract i t => w.extract i t
  | .extractBlob i target => w.extractBlob i target
  | .hasFailed i => w.hasFailed i
  | .copyConstruct i source => w.copyConstruct i source
  | .moveConstruct i source => w.moveConstruct i source
  | .assign i source => w.assign i source
  | .moveAssign i source => w.moveAssign i source
  | .destroy i => w.destroy i

end CppTango.Client.Pipe
