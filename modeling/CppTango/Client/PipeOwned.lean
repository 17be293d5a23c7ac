import CppTango.Client.PipeArrays

namespace CppTango.Client.Pipe

open CppTango.Lib

/-- The two arrays of a blob. -/
inductive Side
  | insert | extract
deriving DecidableEq

def Ptr.base : Ptr → Option Nat
  | .at base _ => some base
  | .wild => none

/-- How a blob holds its arrays: the insert array is its own, an extract array only with the delete flag. -/
def holdOf (b : BlobObject) : Side → Option Ref
  | .insert => b.insertEltArray.map (fun a => ⟨a,.sole⟩)
  | .extract => (b.extractEltArray.bind Ptr.base).map (fun a => ⟨a,if b.extractDelete then .owner else .guest⟩)

def World.refs (w : World) (k : Nat × Side) : Option Ref := (w.blob k.1).bind (fun b => holdOf b k.2)

/-- The array that a blob would delete. -/
def owned (b : BlobObject) : Side → Option Ptr
  | .insert => b.insertEltArray.map (fun a => .at a [])
  | .extract => if b.extractDelete then b.extractEltArray else none

/-- The arrays of every blob are absent, or live and owned by one blob only, and nothing released was touched. -/
structure Usable (w : World) : Prop where
  whole : w.broken = false
  insertLive : ∀ {i b a}, w.blob i = some b → b.insertEltArray = some a → (w.store.get a).isSome = true
  extractLive : ∀ {i b p}, w.blob i = some b → b.extractEltArray = some p → (w.elts p).isSome = true
  allocated : ∀ {i b s p}, w.blob i = some b → owned b s = some p → ∃ a, p = .at a []
  one : ∀ {i j b c s t p}, w.blob i = some b → w.blob j = some c → owned b s = some p → owned c t = some p →
    i = j ∧ s = t

/-- An extract pointer was set, and one with the delete flag to an array that was allocated itself. -/
structure Tidy (b : BlobObject) : Prop where
  set : b.extractEltArray ≠ some .wild
  allocated : b.extractDelete = true → ∀ {a path}, b.extractEltArray = some (.at a path) → path = []

structure Sound (w : World) : Prop where
  whole : w.broken = false
  held : Held w.store w.refs
  tidy : ∀ {i b}, w.blob i = some b → Tidy b

section Refs
variable {w : World} {i : Nat} {b : BlobObject}

theorem refs_of_blob (h : w.blob i = some b) (s : Side) : w.refs (i,s) = holdOf b s := by
  simp only [World.refs,h,Option.bind_some]

theorem refs_insert {a : Nat} (h : w.blob i = some b) (ha : b.insertEltArray = some a) :
    w.refs (i,.insert) = some ⟨a,.sole⟩ := by
  rw [refs_of_blob h,holdOf,ha]
  rfl

theorem refs_extract {a : Nat} {path : List Nat} (h : w.blob i = some b) (ha : b.extractEltArray = some (.at a path)) :
    w.refs (i,.extract) = some ⟨a,if b.extractDelete then .owner else .guest⟩ := by
  rw [refs_of_blob h,holdOf,ha]
  rfl

theorem Sound.insert_live (h : Sound w) (hb : w.blob i = some b) {a : Nat} (ha : b.insertEltArray = some a) :
    (w.store.get a).isSome = true := h.held.live (refs_insert hb ha)

theorem Sound.extract_at (h : Sound w) (hb : w.blob i = some b) {p : Ptr} (hp : b.extractEltArray = some p) :
    ∃ a path, p = .at a path ∧ w.refs (i,.extract) = some ⟨a,if b.extractDelete then .owner else .guest⟩ ∧
      (w.store.get a).isSome = true := by
  cases p with
  | wild => exact absurd hp (h.tidy hb).set
  | «at» a path => exact ⟨a,path,rfl,refs_extract hb hp,h.held.live (refs_extract hb hp)⟩

theorem elts_isSome {a : Nat} (path : List Nat) (h : (w.store.get a).isSome = true) :
    (w.elts (.at a path)).isSome = true := by
  simp only [World.elts,Option.isSome_map,h]

theorem Sound.extract_live (h : Sound w) (hb : w.blob i = some b) {p : Ptr} (hp : b.extractEltArray = some p) :
    (w.elts p).isSome = true := by
  obtain ⟨a,path,rfl,-,hlive⟩ := h.extract_at hb hp
  exact elts_isSome path hlive

/-- An owned array is held by its owner. -/
theorem Sound.owned_held (h : Sound w) (hb : w.blob i = some b) {s : Side} {p : Ptr} (hp : owned b s = some p) :
    ∃ a hold, p = .at a [] ∧ w.refs (i,s) = some ⟨a,hold⟩ ∧
      hold = (match s with | .insert => .sole | .extract => .owner) := by
  cases s with
  | insert =>
    obtain ⟨a,ha,rfl⟩ := Option.map_eq_some_iff.mp hp
    exact ⟨a,.sole,rfl,refs_insert hb ha,rfl⟩
  | extract =>
    change (if b.extractDelete then b.extractEltArray else none) = some p at hp
    split at hp
    next hdel =>
      obtain ⟨a,path,rfl,href,-⟩ := h.extract_at hb hp
      obtain rfl := (h.tidy hb).allocated hdel hp
      rw [if_pos hdel] at href
      exact ⟨a,.owner,rfl,href,rfl⟩
    next => cases hp

theorem Sound.usable (h : Sound w) : Usable w where
  whole := h.whole
  insertLive hb ha := h.insert_live hb ha
  extractLive hb hp := h.extract_live hb hp
  allocated hb hp := by
    obtain ⟨a,-,ha,-⟩ := h.owned_held hb hp
    exact ⟨a,ha⟩
  one := by
    intro i j b c s t p hb hc hs ht
    obtain ⟨a,hold,rfl,href,hh⟩ := h.owned_held hb hs
    obtain ⟨a',hold',ha,href',hh'⟩ := h.owned_held hc ht
    obtain rfl : a = a' := by injection ha
    have hkey : (i,s) = (j,t) := by
      cases s with
      | insert => exact h.held.sole href href' hh rfl
      | extract =>
        cases t with
        | insert => exact (h.held.sole href' href hh' rfl).symm
        | extract => exact h.held.owner href href' hh hh' rfl
    exact ⟨congrArg Prod.fst hkey,congrArg Prod.snd hkey⟩

end Refs

section Changes
variable {w : World} {i : Nat} {b b' : BlobObject} {st : Store Elts}

theorem blob_setBlob (j : Nat) : (w.setBlob i b').blob j = if j = i then some b' else w.blob j := by
  unfold World.setBlob
  by_cases h : j = i
  · subst h
    simp
  · simp [h]

/-- A blob that holds one of its arrays in another way. -/
theorem refs_setBlob (s : Side) (hs : ∀ t, t ≠ s → holdOf b' t = w.refs (i,t)) :
    ({ w with store := st }.setBlob i b').refs = Function.update w.refs (i,s) (holdOf b' s) := by
  funext ⟨j,t⟩
  have hblob : ({ w with store := st }.setBlob i b').blob j = if j = i then some b' else w.blob j := blob_setBlob j
  unfold World.refs
  rw [hblob]
  by_cases hj : j = i
  · subst hj
    by_cases ht : t = s
    · subst ht
      rw [Function.update_self,if_pos rfl]
      rfl
    · rw [Function.update_of_ne (by simpa using ht),if_pos rfl]
      exact hs t ht
  · rw [Function.update_of_ne (by simp [hj]),if_neg hj]

theorem refs_setBlob_both (w : World) (i : Nat) (b' : BlobObject) (st : Store Elts) :
    ({ w with store := st }.setBlob i b').refs =
    Function.update (Function.update w.refs (i,.extract) (holdOf b' .extract)) (i,.insert) (holdOf b' .insert) := by
  funext ⟨j,t⟩
  have hblob : ({ w with store := st }.setBlob i b').blob j = if j = i then some b' else w.blob j := blob_setBlob j
  unfold World.refs
  rw [hblob]
  by_cases hj : j = i
  · subst hj
    cases t
    · rw [Function.update_self,if_pos rfl]
      rfl
    · rw [Function.update_of_ne (by simp),Function.update_self,if_pos rfl]
      rfl
  · rw [Function.update_of_ne (by simp [hj]),Function.update_of_ne (by simp [hj]),if_neg hj]

theorem Sound.setBlob (h : Sound w) (st : Store Elts) (ht : Tidy b')
    (hh : Held st ({ w with store := st }.setBlob i b').refs) : Sound ({ w with store := st }.setBlob i b') where
  whole := h.whole
  held := hh
  tidy := by
    intro j c hc
    rw [blob_setBlob] at hc
    split at hc
    · cases hc
      exact ht
    · exact h.tidy hc

/-- A blob that holds the arrays it held. -/
theorem Sound.keeps (h : Sound w) (ht : Tidy b') (hold : ∀ t, holdOf b' t = w.refs (i,t)) : Sound (w.setBlob i b') := by
  refine h.setBlob w.store ht ?_
  rw [refs_setBlob .insert (fun t _ => hold t),hold,Function.update_eq_self]
  exact h.held

theorem Tidy.same (h : Tidy b) (he : b'.extractEltArray = b.extractEltArray) (hd : b'.extractDelete = b.extractDelete) :
    Tidy b' := by
  constructor
  · rw [he]
    exact h.set
  · rw [he,hd]
    exact h.allocated

theorem Sound.same (h : Sound w) (hb : w.blob i = some b) (hi : b'.insertEltArray = b.insertEltArray)
    (he : b'.extractEltArray = b.extractEltArray) (hd : b'.extractDelete = b.extractDelete) :
    Sound (w.setBlob i b') := by
  refine h.keeps ((h.tidy hb).same he hd) ?_
  intro t
  rw [refs_of_blob hb]
  cases t
  · simp only [holdOf,hi]
  · simp only [holdOf,he,hd]

theorem Sound.put (h : Sound w) {a : Nat} (ha : (w.store.get a).isSome = true) (es : Elts) :
    Sound { w with store := w.store.put a es } where
  whole := h.whole
  held := h.held.put ha es
  tidy := h.tidy

theorem Sound.write (h : Sound w) {a : Nat} (path : List Nat) (ha : (w.store.get a).isSome = true) (ind : Nat)
    (g : DevPipeDataElt → DevPipeDataElt) :
    Sound (w.write (.at a path) ind g) ∧ (w.write (.at a path) ind g).blob = w.blob := by
  obtain ⟨es,hes⟩ := Option.isSome_iff_exists.mp ha
  unfold World.write
  dsimp only
  rw [hes]
  exact ⟨h.put ha _,rfl⟩

/-- A blob gets a new insert array. -/
theorem Sound.newInsert (h : Sound w) (hb : w.blob i = some b) (es : Elts) (hi : b'.insertEltArray = some w.store.next)
    (he : b'.extractEltArray = b.extractEltArray) (hd : b'.extractDelete = b.extractDelete) :
    Sound ({ w with store := w.store.alloc es }.setBlob i b') := by
  refine h.setBlob _ ((h.tidy hb).same he hd) ?_
  rw [refs_setBlob .insert,holdOf,hi]
  · exact h.held.alloc (i,.insert) es .sole
  · intro t ht
    rw [refs_of_blob hb]
    cases t
    · exact absurd rfl ht
    · simp only [holdOf,he,hd]

/-- A blob, or a new object, gets a new extract array of its own. -/
theorem Sound.newExtract (h : Sound w) (es : Elts) (hi : holdOf b' .insert = w.refs (i,.insert))
    (he : b'.extractEltArray = some (.at w.store.next [])) (hd : b'.extractDelete = true) :
    Sound ({ w with store := w.store.alloc es }.setBlob i b') := by
  refine h.setBlob _ ?_ ?_
  · constructor
    · rw [he]
      intro hw
      cases hw
    · intro _ a path hp
      rw [he] at hp
      cases hp
      rfl
  · have hext : holdOf b' .extract = some ⟨w.store.next,.owner⟩ := by
      simp only [holdOf,he,hd]
      rfl
    rw [refs_setBlob .extract,hext]
    · exact h.held.alloc (i,.extract) es .owner
    · intro t ht
      cases t
      · exact hi
      · exact absurd rfl ht

end Changes

section Failures
variable {w : World} {i : Nat} {b : BlobObject} {f : Flag}

/-- The blob has nothing that the helper of the error would delete and not forget. -/
def Spared (forgets : Bool) (b : BlobObject) : Prop :=
  (forgets = true ∨ b.insertEltArray = none) ∧ (b.extractDelete = true → b.extractEltArray = none)

theorem deleteExtract_spared (h : b.extractDelete = true → b.extractEltArray = none) : w.deleteExtract b = w := by
  unfold World.deleteExtract
  split
  next hd => rw [h hd]
  next => rfl

/-- Without a right to the extract array the delete flag makes no difference. -/
theorem tidy_undeleted {b' : BlobObject} (h : Tidy b) (he : b'.extractEltArray = b.extractEltArray)
    (hd : b'.extractDelete = false) : Tidy b' := by
  constructor
  · rw [he]
    exact h.set
  · rw [hd]
    intro hf
    cases hf

theorem Sound.letGo {forgets : Bool} (h : Sound w) (hb : w.blob i = some b) (hs : Spared forgets b) :
    Sound (w.letGo forgets i b) := by
  have hextract : ∀ {b' : BlobObject}, b'.extractEltArray = b.extractEltArray → b'.extractDelete = false →
      holdOf b' .extract = w.refs (i,.extract) := by
    intro b' he hd
    rw [refs_of_blob hb]
    by_cases hdel : b.extractDelete = true
    · simp only [holdOf,he,hs.2 hdel]
      rfl
    · simp only [holdOf,he,hd,hdel]
  unfold World.letGo
  rw [deleteExtract_spared hs.2]
  cases ha : b.insertEltArray with
  | none =>
    have hnone : w.deleteInsert b = w := by rw [World.deleteInsert,ha]
    dsimp only
    rw [hnone]
    refine h.keeps (tidy_undeleted (h.tidy hb) rfl rfl) ?_
    intro t
    cases t
    · rw [refs_of_blob hb]
      simp only [holdOf,ha,ite_self]
    · exact hextract rfl rfl
  | some a =>
    obtain rfl : forgets = true := hs.1.resolve_right (by rw [ha]; exact Option.some_ne_none a)
    have hdel : w.deleteInsert b = { w with store := w.store.release a } := by
      rw [World.deleteInsert,ha]
      exact if_pos (h.insert_live hb ha)
    dsimp only
    rw [hdel,if_pos rfl]
    refine h.setBlob _ (tidy_undeleted (h.tidy hb) rfl rfl) ?_
    rw [refs_setBlob .insert]
    · refine (h.held.drop (i,.insert)).release ?_
      intro k r hr heq
      by_cases hk : k = (i,.insert)
      · subst hk
        simp at hr
      · have hr := Held.update_other hk hr
        exact hk (h.held.sole (refs_insert hb ha) hr rfl heq).symm
    · intro t ht
      cases t
      · exact absurd rfl ht
      · exact hextract rfl rfl

theorem Sound.fails (h : Sound w) (hb : w.blob i = some b)
    (hs : b.exceptionsFlags f = true → Spared (f = .notenoughde) b) : Sound (w.fails i b f) := by
  have hnoted : Sound (w.setBlob i (b.noted (some f))) := h.same hb rfl rfl rfl
  unfold World.fails
  dsimp only
  split
  next hf => exact hnoted.letGo (by rw [blob_setBlob,if_pos rfl]) (hs hf)
  next => exact hnoted

theorem Sound.hasFailed (h : Sound w) (hs : ∀ b, w.blob i = some b → b.failed = true → Spared false b) :
    Sound (w.hasFailed i) := by
  unfold World.hasFailed
  cases hb : w.blob i with
  | none => exact h
  | some b =>
    dsimp only
    split
    next hf => exact h.letGo hb (hs b hb hf)
    next => exact h

end Failures

section Names
variable {w : World} {i : Nat} {b : BlobObject}

theorem Sound.setDataEltNames (h : Sound w) (names : List String) : Sound (w.setDataEltNames i names) := by
  unfold World.setDataEltNames
  cases hb : w.blob i with
  | none => exact h
  | some b =>
    dsimp only
    split
    next => exact h
    next es _ => exact h.newInsert hb es rfl rfl rfl

theorem Sound.setDataEltNb (h : Sound w) (nb : Nat) : Sound (w.setDataEltNb i nb) := by
  unfold World.setDataEltNb
  cases hb : w.blob i with
  | none => exact h
  | some b => exact h.newInsert hb _ rfl rfl rfl

theorem Sound.setCurrentDeltName (h : Sound w) (na : String) : Sound (w.setCurrentDeltName i na) := by
  unfold World.setCurrentDeltName
  cases hb : w.blob i with
  | none => exact h
  | some b =>
    dsimp only
    cases ha : b.insertEltArray with
    | none => exact h.newInsert hb _ rfl rfl rfl
    | some a =>
      have hlive := h.insert_live hb ha
      obtain ⟨es,hes⟩ := Option.isSome_iff_exists.mp hlive
      dsimp only
      rw [hes]
      exact h.put hlive _

theorem getExtractInd_arrays {es : Option Elts} {na : String} {b' : BlobObject} (h : b.getExtractInd es na = .ok b') :
    b'.insertEltArray = b.insertEltArray ∧ b'.extractEltArray = b.extractEltArray ∧
      b'.extractDelete = b.extractDelete := by
  unfold DevicePipeBlob.getExtractInd at h
  repeat' split at h
  all_goals cases h
  all_goals exact ⟨rfl,rfl,rfl⟩

theorem getInsertInd_arrays {es : Option Elts} {na : String} {b' : BlobObject} (h : b.getInsertInd es na = .ok b') :
    b'.insertEltArray = b.insertEltArray ∧ b'.extractEltArray = b.extractEltArray ∧
      b'.extractDelete = b.extractDelete := by
  unfold DevicePipeBlob.getInsertInd at h
  repeat' split at h
  all_goals cases h
  all_goals exact ⟨rfl,rfl,rfl⟩

/-- The arrays of a blob can be read. -/
theorem Sound.extract_read (h : Sound w) (hb : w.blob i = some b) : b.extractEltArray.map w.elts ≠ some none := by
  cases hp : b.extractEltArray with
  | none => exact fun hn => by cases hn
  | some p =>
    obtain ⟨es,hes⟩ := Option.isSome_iff_exists.mp (h.extract_live hb hp)
    rw [Option.map_some,hes]
    exact fun hn => by cases hn

theorem Sound.insert_read (h : Sound w) (hb : w.blob i = some b) : b.insertEltArray.map w.store.get ≠ some none := by
  cases ha : b.insertEltArray with
  | none => exact fun hn => by cases hn
  | some a =>
    obtain ⟨es,hes⟩ := Option.isSome_iff_exists.mp (h.insert_live hb ha)
    rw [Option.map_some,hes]
    exact fun hn => by cases hn

theorem Sound.index (h : Sound w) (na : String) : Sound (w.index i na) := by
  unfold World.index
  cases hb : w.blob i with
  | none => exact h
  | some b =>
    dsimp only
    split
    next heq => exact absurd heq (h.extract_read hb)
    next =>
      split
      next => exact h
      next b' hok =>
        obtain ⟨hi,he,hd⟩ := getExtractInd_arrays hok
        have hset : Sound (w.setBlob i b') := h.same hb hi he hd
        split
        next heq =>
          rw [hi] at heq
          exact absurd heq (h.insert_read hb)
        next =>
          split
          next => exact hset
          next b'' hok' =>
            obtain ⟨hi',he',hd'⟩ := getInsertInd_arrays hok'
            exact h.same hb (hi'.trans hi) (he'.trans he) (hd'.trans hd)

end Names

section Operators
variable {w : World} {i : Nat} {b : BlobObject}

/-- Where the insertion of a blob goes, or why it fails. -/
def World.insertTry (w : World) (b : BlobObject) : Except Flag Int :=
  b.insertAt ((b.insertEltArray.bind w.store.get).map List.length)

/-- The element that the insertion of a blob goes to. -/
def World.goesTo (w : World) (b : BlobObject) : Option Nat :=
  match w.insertTry b with
  | .error _ => none
  | .ok ind =>
    if ind < 0 ∨ (((b.insertEltArray.bind w.store.get).map List.length).getD 0 : Nat) ≤ ind then none
    else some ind.toNat

/-- What the extraction from a blob finds. -/
def World.found (w : World) (b : BlobObject) (t : ExtractType) : Found :=
  let es := b.extractEltArray.bind w.elts
  match b.extractAt (es.map List.length) with
  | .error f => .failed f
  | .ok ind =>
    match eltAt (es.getD []) ind with
    | none => .outside
    | some e => look t e

/-- An insertion fails, finds no element, or goes to its body. -/
theorem Sound.insertWith_cases {body : BlobObject → Nat → Nat → World → World} {early : Bool} (h : Sound w)
    (hb : w.blob i = some b) :
    (∃ f, w.insertTry b = .error f ∧ w.insertWith i early body = w.fails i b f) ∨
    (∃ b' : BlobObject, w.insertWith i early body = w.setBlob i b' ∧ b'.insertEltArray = b.insertEltArray ∧
      b'.extractEltArray = b.extractEltArray ∧ b'.extractDelete = b.extractDelete) ∨
    ∃ a ind, w.goesTo b = some ind ∧ b.insertEltArray = some a ∧
      w.insertWith i early body = body (b.noted none) a ind (w.setBlob i (b.noted none)) := by
  unfold World.insertWith
  rw [hb]
  dsimp only
  cases ha : b.insertEltArray with
  | none => exact .inl ⟨.blobdenamenotset,by rw [World.insertTry,ha]; rfl,rfl⟩
  | some a =>
    obtain ⟨es,hes⟩ := Option.isSome_iff_exists.mp (h.insert_live hb ha)
    have htry : w.insertTry b = b.insertAt (some es.length) := by rw [World.insertTry,ha,Option.bind_some,hes]; rfl
    dsimp only
    rw [hes]
    dsimp only
    cases hat : b.insertAt (some es.length) with
    | error f => exact .inl ⟨f,htry.trans hat,rfl⟩
    | ok ind =>
      dsimp only
      split
      next =>
        refine .inr (.inl ⟨_,rfl,?_⟩)
        cases early with
        | false => exact ⟨ha,rfl,rfl⟩
        | true =>
          rw [if_pos rfl]
          unfold DevicePipeBlob.inserted
          split <;> exact ⟨ha,rfl,rfl⟩
      next hin =>
        have hgoes : w.goesTo b = some ind.toNat := by
          simp only [World.goesTo,htry.trans hat,ha,Option.bind_some,hes,Option.map_some,Option.getD_some,if_neg hin]
        exact .inr (.inr ⟨a,ind.toNat,hgoes,rfl,rfl⟩)

/-- An extraction fails, finds nothing, or goes to its body. -/
theorem Sound.extractWith_cases {body : BlobObject → Ptr → Nat → DevPipeDataElt → World → World} {t : ExtractType}
    (h : Sound w) (hb : w.blob i = some b) :
    (∃ f, w.found b t = .failed f ∧ w.extractWith i t body = w.fails i b f) ∨
    w.extractWith i t body = w.setBlob i (b.noted none) ∨
    ∃ x p ind e, w.found b t = .got x ∧ b.extractEltArray = some p ∧
      w.extractWith i t body = body (b.noted none) p ind e (w.setBlob i (b.noted none)) := by
  unfold World.extractWith
  rw [hb]
  dsimp only
  cases hp : b.extractEltArray with
  | none => exact .inl ⟨.isempty,by rw [World.found,hp]; rfl,rfl⟩
  | some p =>
    obtain ⟨es,hes⟩ := Option.isSome_iff_exists.mp (h.extract_live hb hp)
    have harray : b.extractEltArray.bind w.elts = some es := by rw [hp,Option.bind_some,hes]
    dsimp only
    rw [hes]
    dsimp only
    cases hat : b.extractAt (some es.length) with
    | error f =>
      refine .inl ⟨f,?_,rfl⟩
      simp only [World.found,harray,Option.map_some,hat]
    | ok ind =>
      dsimp only
      cases he : eltAt es ind with
      | none => exact .inr (.inl rfl)
      | some e =>
        have hfound : w.found b t = look t e := by
          simp only [World.found,harray,Option.map_some,hat,Option.getD_some,he]
        dsimp only
        cases hl : look t e with
        | failed f => exact .inl ⟨f,hfound.trans hl,rfl⟩
        | nothing => exact .inr (.inl rfl)
        | outside => exact .inr (.inl rfl)
        | got x => exact .inr (.inr ⟨x,p,ind.toNat,e,hfound.trans hl,rfl,rfl⟩)

/-- Where the insertion fails with its exception, the blob is spared. -/
def InsertsWell (w : World) (i : Nat) : Prop :=
  ∀ b f, w.blob i = some b → w.insertTry b = .error f → b.exceptionsFlags f = true → Spared (f = .notenoughde) b

def ExtractsWell (w : World) (i : Nat) (t : ExtractType) : Prop :=
  ∀ b f, w.blob i = some b → w.found b t = .failed f → b.exceptionsFlags f = true → Spared (f = .notenoughde) b

theorem inserted_arrays (b : BlobObject) : b.inserted.insertEltArray = b.insertEltArray ∧
    b.inserted.extractEltArray = b.extractEltArray ∧ b.inserted.extractDelete = b.extractDelete := by
  unfold DevicePipeBlob.inserted
  split <;> exact ⟨rfl,rfl,rfl⟩

theorem extracted_arrays (b : BlobObject) : b.extracted.insertEltArray = b.insertEltArray ∧
    b.extracted.extractEltArray = b.extractEltArray ∧ b.extracted.extractDelete = b.extractDelete := by
  unfold DevicePipeBlob.extracted
  split <;> exact ⟨rfl,rfl,rfl⟩

theorem Sound.insert (h : Sound w) (x : Datum) (hw : InsertsWell w i) : Sound (w.insert i x) := by
  cases hb : w.blob i with
  | none =>
    unfold World.insert World.insertWith
    rw [hb]
    exact h
  | some b =>
    rcases h.insertWith_cases hb with ⟨f,hf,heq⟩ | ⟨b',heq,hi,he,hd⟩ | ⟨a,ind,-,ha,heq⟩
    · rw [World.insert,heq]
      exact h.fails hb (hw b f hb hf)
    · rw [World.insert,heq]
      exact h.same hb hi he hd
    · rw [World.insert,heq]
      have hset : Sound (w.setBlob i (b.noted none)) := h.same hb rfl rfl rfl
      have hblob : (w.setBlob i (b.noted none)).blob i = some (b.noted none) := by rw [blob_setBlob,if_pos rfl]
      obtain ⟨hwrite,hsame⟩ := hset.write [] (hset.insert_live hblob ha) ind (DevPipeDataElt.store x)
      obtain ⟨hi,he,hd⟩ := inserted_arrays (b.noted none)
      exact hwrite.same (by rw [hsame,hblob]) hi he hd

theorem Sound.insertBlob (h : Sound w) (source : Nat) (hw : InsertsWell w i)
    (hs : ∀ b s ind, w.blob i = some b → w.blob source = some s → w.goesTo b = some ind → s.insertEltArray = none) :
    Sound (w.insertBlob i source) := by
  cases hb : w.blob i with
  | none =>
    unfold World.insertBlob World.insertWith
    rw [hb]
    exact h
  | some b =>
    rcases h.insertWith_cases hb with ⟨f,hf,heq⟩ | ⟨b',heq,hi,he,hd⟩ | ⟨a,ind,htry,ha,heq⟩
    · rw [World.insertBlob,heq]
      exact h.fails hb (hw b f hb hf)
    · rw [World.insertBlob,heq]
      exact h.same hb hi he hd
    · rw [World.insertBlob,heq]
      have hset : Sound (w.setBlob i (b.noted none)) := h.same hb rfl rfl rfl
      rw [blob_setBlob]
      split
      next => exact hset
      next d hd =>
        have hnone : d.insertEltArray = none := by
          split at hd
          next hsi =>
            cases hd
            exact hs b b ind hb (hsi ▸ hb) htry
          next => exact hs b d ind hb hd htry
        rw [hnone]
        exact hset

theorem Sound.extract (h : Sound w) (t : ExtractType) (hw : ExtractsWell w i t) : Sound (w.extract i t) := by
  cases hb : w.blob i with
  | none =>
    unfold World.extract World.extractWith
    rw [hb]
    exact h
  | some b =>
    have hset : Sound (w.setBlob i (b.noted none)) := h.same hb rfl rfl rfl
    have hblob : (w.setBlob i (b.noted none)).blob i = some (b.noted none) := by rw [blob_setBlob,if_pos rfl]
    obtain ⟨hi,he,hd⟩ := extracted_arrays (b.noted none)
    rcases h.extractWith_cases hb with ⟨f,hf,heq⟩ | heq | ⟨x,p,ind,e,-,hp,heq⟩
    · rw [World.extract,heq]
      exact h.fails hb (hw b f hb hf)
    · rw [World.extract,heq]
      exact hset
    · rw [World.extract,heq]
      split
      next =>
        obtain ⟨a,path,rfl,-,hlive⟩ := hset.extract_at hblob hp
        obtain ⟨hwrite,hsame⟩ := hset.write path hlive ind (DevPipeDataElt.left _)
        exact hwrite.same (by rw [hsame,hblob]) hi he hd
      next => exact hset.same hblob hi he hd

/-- A blob without the delete flag is lent an inner blob of an array that is extracted from. -/
theorem Sound.lend (h : Sound w) {target a : Nat} {path path' : List Nat} {d d' : BlobObject}
    (hb : w.blob i = some b) (ha : b.extractEltArray = some (.at a path)) (hd : w.blob target = some d)
    (hi : d'.insertEltArray = d.insertEltArray) (he : d'.extractEltArray = some (.at a path'))
    (hdel : d'.extractDelete = false) : Sound (w.setBlob target d') := by
  refine h.setBlob w.store ?_ ?_
  · constructor
    · rw [he]
      intro hw
      cases hw
    · rw [hdel]
      intro hf
      cases hf
  · have hhold : holdOf d' .extract = some ⟨a,.guest⟩ := by
      simp only [holdOf,he,hdel]
      rfl
    rw [refs_setBlob .extract,hhold]
    · refine h.held.lend (target,.extract) (i,.extract) (refs_extract hb ha) ?_
      split <;> exact fun hs => by cases hs
    · intro t ht
      cases t
      · rw [refs_of_blob hd]
        simp only [holdOf,hi]
      · exact absurd rfl ht

theorem setBlob_twice {b' : BlobObject} : (w.setBlob i b).setBlob i b' = w.setBlob i b' := by
  simp only [World.setBlob,Function.update_idem]

theorem Sound.extractBlob (h : Sound w) (target : Nat) (hw : ExtractsWell w i .blob)
    (hd : ∀ b d x, w.blob i = some b → w.blob target = some d → w.found b .blob = .got x → d.extractDelete = false) :
    Sound (w.extractBlob i target) := by
  cases hb : w.blob i with
  | none =>
    unfold World.extractBlob World.extractWith
    rw [hb]
    exact h
  | some b =>
    have hset : Sound (w.setBlob i (b.noted none)) := h.same hb rfl rfl rfl
    have hblob : (w.setBlob i (b.noted none)).blob i = some (b.noted none) := by rw [blob_setBlob,if_pos rfl]
    rcases h.extractWith_cases hb with ⟨f,hf,heq⟩ | heq | ⟨x,p,ind,e,hgot,hp,heq⟩
    · rw [World.extractBlob,heq]
      exact h.fails hb (hw b f hb hf)
    · rw [World.extractBlob,heq]
      exact hset
    · rw [World.extractBlob,heq]
      obtain ⟨a,path,rfl,-,-⟩ := h.extract_at hb hp
      cases htarget : (w.setBlob i (b.noted none)).blob target with
      | none => exact hset
      | some d =>
        have hdel : d.extractDelete = false := by
          rw [blob_setBlob] at htarget
          split at htarget
          next hi =>
            cases htarget
            exact hd b b x hb (hi ▸ hb) hgot
          next => exact hd b d x hb htarget hgot
        have hlent : ∀ d' : BlobObject, d'.insertEltArray = d.insertEltArray →
            d'.extractEltArray = some (.at a (path ++ [ind])) → d'.extractDelete = false →
            Sound ((w.setBlob i (b.noted none)).setBlob target d') :=
          fun d' hi he hf => hset.lend hblob hp htarget hi he hf
        dsimp only
        split
        next => exact hlent _ rfl rfl hdel
        next e' _ =>
          rw [setBlob_twice]
          have hnamed := hlent (d.targeted (.at a (path ++ [ind])) e'.innerBlobName) rfl rfl hdel
          split
          next => exact hnamed
          next c hc =>
            obtain ⟨hi,he,hf⟩ := extracted_arrays c
            exact hnamed.same hc hi he hf

end Operators

section Objects
variable {w : World} {i source : Nat} {b s : BlobObject}

/-- No other blob owns the array that the pointer is to, which was allocated itself. -/
def Claimable (w : World) (i : Nat) (p : Ptr) : Prop :=
  ∃ a, p = .at a [] ∧ ∀ j c q, j ≠ i → w.blob j = some c → c.extractDelete = true → c.extractEltArray = some q →
    q.base ≠ some a

/-- No other blob extracts from the array that the pointer is to. -/
def Unshared (w : World) (i : Nat) (p : Ptr) : Prop :=
  ∀ j c q, j ≠ i → w.blob j = some c → c.extractEltArray = some q → q.base ≠ p.base

theorem refs_absent (h : w.blob i = none) (t : Side) : w.refs (i,t) = none := by
  simp only [World.refs,h,Option.bind_none]

theorem Sound.make (h : Sound w) (name : String) : Sound (w.make i name) := by
  unfold World.make
  cases hb : w.blob i with
  | some b => exact h
  | none =>
    refine h.keeps ⟨(fun hw => by cases hw),(fun hd => by cases hd)⟩ ?_
    intro t
    rw [refs_absent hb]
    cases t <;> rfl

theorem Sound.receive (h : Sound w) (name : String) (es : Elts) : Sound (w.receive i name es) := by
  unfold World.receive
  cases hb : w.blob i with
  | some b => exact h
  | none => exact h.newExtract es (refs_absent hb _).symm rfl rfl

theorem Sound.exceptions (h : Sound w) (fl : Flag → Bool) : Sound (w.exceptions i fl) := by
  unfold World.exceptions
  cases hb : w.blob i with
  | none => exact h
  | some b => exact h.same hb rfl rfl rfl

/-- A pointer with the delete flag is released; another one stays. -/
theorem Sound.deleteExtract (h : Sound w) (hb : w.blob i = some b)
    (hu : b.extractDelete = true → ∀ p, b.extractEltArray = some p → Unshared w i p) :
    ∃ st, w.deleteExtract b = { w with store := st } ∧
      Held st (Function.update w.refs (i,.extract) (if b.extractDelete then none else w.refs (i,.extract))) := by
  unfold World.deleteExtract
  split
  next hd =>
    cases hp : b.extractEltArray with
    | none => exact ⟨w.store,rfl,h.held.drop _⟩
    | some p =>
      obtain ⟨a,path,rfl,href,hlive⟩ := h.extract_at hb hp
      obtain rfl := (h.tidy hb).allocated hd hp
      refine ⟨w.store.release a,if_pos hlive,(h.held.drop _).release ?_⟩
      intro k r hr heq
      have hk : k ≠ (i,.extract) := by
        rintro rfl
        rw [Function.update_self] at hr
        cases hr
      have hr := Held.update_other hk hr
      obtain ⟨j,t⟩ := k
      cases t with
      | insert =>
        -- an insert array has no other holder
        obtain ⟨c,hc,ha⟩ := Option.bind_eq_some_iff.mp hr
        obtain ⟨a',-,rfl⟩ := Option.map_eq_some_iff.mp ha
        exact hk (h.held.sole hr href rfl heq.symm)
      | extract =>
        obtain ⟨c,hc,ha⟩ := Option.bind_eq_some_iff.mp hr
        obtain ⟨a',ha',rfl⟩ := Option.map_eq_some_iff.mp ha
        obtain ⟨q,hq,hbase⟩ := Option.bind_eq_some_iff.mp ha'
        have hj : j ≠ i := by
          rintro rfl
          exact hk rfl
        exact hu hd _ hp j c q hj hc hq (hbase.trans (congrArg some heq))
  next hd =>
    refine ⟨w.store,rfl,?_⟩
    rw [Function.update_eq_self]
    exact h.held

theorem Sound.destroy (h : Sound w)
    (hu : ∀ b p, w.blob i = some b → b.extractDelete = true → b.extractEltArray = some p → Unshared w i p) :
    Sound (w.destroy i) := by
  unfold World.destroy
  cases hb : w.blob i with
  | none => exact h
  | some b =>
    obtain ⟨st,heq,hheld⟩ := h.deleteExtract hb (fun hd p hp => hu b p hb hd hp)
    have hother : ∀ {j c}, Function.update w.blob i none j = some c → j ≠ i ∧ w.blob j = some c := by
      intro j c hc
      by_cases hj : j = i
      · subst hj
        rw [Function.update_self] at hc
        cases hc
      · rw [Function.update_of_ne hj] at hc
        exact ⟨hj,hc⟩
    dsimp only
    rw [heq]
    refine ⟨h.whole,?_,fun hc => h.tidy (hother hc).2⟩
    apply hheld.sub
    rintro ⟨j,t⟩ r hr
    obtain ⟨c,hc,hr⟩ := Option.bind_eq_some_iff.mp hr
    obtain ⟨hj,hc⟩ := hother hc
    rw [Function.update_of_ne (by simp [hj]),refs_of_blob hc]
    exact hr

/-- The insert array of a blob that another one gets as a copy. -/
theorem Sound.copyInsert (h : Sound w) (hs : w.blob source = some s) : ∃ ins st,
    w.copyInsert s = (ins,{ w with store := st }) ∧
      Held st (Function.update w.refs (i,.insert) (ins.map (fun a => ⟨a,.sole⟩))) ∧
      ∀ a, (w.store.get a).isSome = true → (st.get a).isSome = true := by
  unfold World.copyInsert
  cases ha : s.insertEltArray with
  | none => exact ⟨none,w.store,rfl,h.held.drop _,fun _ hlive => hlive⟩
  | some a =>
    obtain ⟨es,hes⟩ := Option.isSome_iff_exists.mp (h.insert_live hs ha)
    dsimp only
    rw [hes]
    refine ⟨some w.store.next,w.store.alloc es,rfl,h.held.alloc _ es .sole,?_⟩
    intro a hlive
    rw [Store.get_alloc]
    split
    · rfl
    · exact hlive

/-- A blob becomes a copy of another one with all arrays. -/
theorem Sound.copies (h : Sound w) (hs : w.blob source = some s) {p : Ptr} (hp : s.extractEltArray = some p) :
    Sound (((w.copyInsert s).2.copyExtract p).2.setBlob i { s with
      insertEltArray := (w.copyInsert s).1
      extractEltArray := some ((w.copyInsert s).2.copyExtract p).1
      extractDelete := true }) := by
  obtain ⟨ins,st,hins,hheld,hstill⟩ := h.copyInsert (i := i) hs
  obtain ⟨a,path,rfl,-,hlive⟩ := h.extract_at hs hp
  obtain ⟨es,hes⟩ := Option.isSome_iff_exists.mp
    (elts_isSome (w := { w with store := st }) path (hstill a hlive))
  have hcopy : ({ w with store := st } : World).copyExtract (.at a path) =
      (.at st.next [],{ w with store := st.alloc es }) := by
    unfold World.copyExtract
    rw [hes]
  rw [hins]
  dsimp only
  rw [hcopy]
  refine h.setBlob _ ⟨(fun hw => by cases hw),?_⟩ ?_
  · intro _ a path hp
    cases hp
    rfl
  · rw [refs_setBlob_both,Function.update_comm (by simp)]
    exact hheld.alloc (i,.extract) es .owner

theorem Sound.construct (h : Sound w)
    (hs : ∀ s, w.blob i = none → w.blob source = some s → s.extractEltArray ≠ none) : Sound (w.construct i source) := by
  unfold World.construct
  split
  next s hi hsource =>
    obtain ⟨p,hp⟩ := Option.ne_none_iff_exists'.mp (hs s hi hsource)
    have hcopies := h.copies (i := i) hsource hp
    rw [hp]
    exact hcopies
  next => exact h

theorem construct_blob (hi : w.blob i = none) (hs : w.blob source = some s) (hp : s.extractEltArray ≠ none) :
    (w.construct i source).blob source = some s := by
  obtain ⟨p,hp⟩ := Option.ne_none_iff_exists'.mp hp
  have hne : source ≠ i := by
    rintro rfl
    cases hi.symm.trans hs
  have hcopied : ((w.copyInsert s).2.copyExtract p).2.blob = w.blob := by
    unfold World.copyExtract World.copyInsert
    repeat' split
    all_goals rfl
  unfold World.construct
  rw [hi,hs]
  dsimp only
  rw [hp]
  dsimp only
  rw [blob_setBlob,if_neg hne,hcopied,hs]

theorem Sound.moveConstruct (h : Sound w)
    (hs : ∀ s, w.blob i = none → w.blob source = some s → s.extractEltArray ≠ none) :
    Sound (w.moveConstruct i source) := by
  unfold World.moveConstruct
  split
  next s hi hsource =>
    exact (h.construct hs).same (construct_blob hi hsource (hs s hi hsource)) rfl rfl rfl
  next => exact h

/-- A blob keeps its extract pointer under another delete flag. -/
theorem held_keep {st : Store Elts} {refs : Nat × Side → Option Ref} {delete : Bool} {a : Nat} {hold : Hold}
    (h : Held st refs) (hk : refs (i,.extract) = some ⟨a,hold⟩) (hs : hold ≠ .sole)
    (hown : delete = true → ∀ {k q}, k ≠ (i,.extract) → refs k = some q → q.hold = .owner → q.addr ≠ a) :
    Held st (Function.update refs (i,.extract) (some ⟨a,if delete then .owner else .guest⟩)) := by
  cases delete with
  | false => exact h.lend (i,.extract) (i,.extract) hk hs
  | true => exact h.own (i,.extract) hk (hown rfl)

/-- An owner of a claimable array is the blob itself. -/
theorem claimable_owner {a : Nat} {path : List Nat} (hc : Claimable w i (.at a path)) {k : Nat × Side} {q : Ref}
    (hk : k ≠ (i,.extract)) (hq : w.refs k = some q) (ho : q.hold = .owner) : q.addr ≠ a := by
  obtain ⟨j,t⟩ := k
  obtain ⟨c,hc',hr⟩ := Option.bind_eq_some_iff.mp hq
  cases t with
  | insert =>
    obtain ⟨a',-,rfl⟩ := Option.map_eq_some_iff.mp hr
    cases ho
  | extract =>
    obtain ⟨a',ha',rfl⟩ := Option.map_eq_some_iff.mp hr
    obtain ⟨p,hp,hbase⟩ := Option.bind_eq_some_iff.mp ha'
    obtain ⟨a'',heq,hno⟩ := hc
    cases heq
    have hj : j ≠ i := by
      rintro rfl
      exact hk rfl
    intro heq
    refine hno j c p hj hc' ?_ hp (hbase.trans (congrArg some heq))
    cases hd : c.extractDelete with
    | true => rfl
    | false =>
      rw [hd] at ho
      cases ho

theorem Sound.assign (h : Sound w)
    (hs : ∀ b s p, i ≠ source → w.blob i = some b → w.blob source = some s → s.extractEltArray = none →
      s.extractDelete = true → b.extractEltArray = some p → Claimable w i p) : Sound (w.assign i source) := by
  unfold World.assign
  split
  next b s hb hsource =>
    split
    next => exact h
    next hne =>
      cases hp : s.extractEltArray with
      | some p => exact h.copies (i := i) hsource hp
      | none =>
        obtain ⟨ins,st,hins,hheld,-⟩ := h.copyInsert (i := i) hsource
        rw [hins]
        dsimp only
        have hclaim := fun p hd hbp => hs b s p hne hb hsource hp hd hbp
        refine h.setBlob _ ⟨(h.tidy hb).set,?_⟩ ?_
        · intro hd a path hbp
          obtain ⟨a',heq,-⟩ := hclaim _ hd hbp
          cases heq
          rfl
        · rw [refs_setBlob_both,Function.update_comm (by simp)]
          cases hbp : b.extractEltArray with
          | none =>
            have hhold : ∀ d : BlobObject, d.extractEltArray = none → holdOf d .extract = none := by
              intro d hd
              simp only [holdOf,hd,Option.bind_none,Option.map_none]
            rw [hhold _ rfl]
            exact hheld.drop (i,.extract)
          | some p =>
            obtain ⟨a,path,rfl,href,-⟩ := h.extract_at hb hbp
            have hk : Function.update w.refs (i,.insert) (ins.map (fun a => ⟨a,.sole⟩)) (i,.extract) =
                some ⟨a,if b.extractDelete then .owner else .guest⟩ := by
              rw [Function.update_of_ne (by simp),href]
            refine held_keep hheld hk (by split <;> exact fun hf => by cases hf) ?_
            intro hd k q hk hq ho
            by_cases hki : k = (i,.insert)
            · subst hki
              rw [Function.update_self] at hq
              obtain ⟨a',-,rfl⟩ := Option.map_eq_some_iff.mp hq
              cases ho
            · rw [Function.update_of_ne hki] at hq
              exact claimable_owner (hclaim _ hd hbp) hk hq ho
  next => exact h

/-- The arrays go over from one blob to another one; where there is none the target keeps its own. -/
theorem Sound.moves (h : Sound w) (hne : i ≠ source) (hb : w.blob i = some b) (hs : w.blob source = some s)
    (hd : b.extractDelete = s.extractDelete) :
    Sound ((w.setBlob i { s with
      insertEltArray := s.insertEltArray.or b.insertEltArray
      extractEltArray := s.extractEltArray.or b.extractEltArray }).setBlob source
        { s with name := "", insertEltArray := none, extractEltArray := none }) := by
  have hkey : ∀ t t', ((i,t) : Nat × Side) ≠ (source,t') := fun t t' heq => hne (congrArg Prod.fst heq)
  have hmoved : ∀ t, holdOf { s with
      insertEltArray := s.insertEltArray.or b.insertEltArray
      extractEltArray := s.extractEltArray.or b.extractEltArray } t = (w.refs (source,t)).or (w.refs (i,t)) := by
    intro t
    rw [refs_of_blob hb,refs_of_blob hs]
    cases t with
    | insert => cases hi : s.insertEltArray <;> simp [holdOf,hi]
    | extract =>
      cases hp : s.extractEltArray with
      | none => simp [holdOf,hp,hd]
      | some p =>
        cases p with
        | wild => exact absurd hp (h.tidy hs).set
        | «at» a path => simp [holdOf,hp,Ptr.base]
  have htidy : Tidy { s with
      insertEltArray := s.insertEltArray.or b.insertEltArray
      extractEltArray := s.extractEltArray.or b.extractEltArray } := by
    cases hp : s.extractEltArray with
    | some p => exact (h.tidy hs).same hp.symm rfl
    | none => exact (h.tidy hb).same rfl hd.symm
  have htake := (h.held.take (i,.extract) (source,.extract)).take (i,.insert) (source,.insert)
  refine ⟨h.whole,?_,?_⟩
  · have hrefs := refs_setBlob_both
      (w.setBlob i { s with
        insertEltArray := s.insertEltArray.or b.insertEltArray
        extractEltArray := s.extractEltArray.or b.extractEltArray })
      source { s with name := "", insertEltArray := none, extractEltArray := none } w.store
    have hrefs' := refs_setBlob_both w i
      { s with
        insertEltArray := s.insertEltArray.or b.insertEltArray
        extractEltArray := s.extractEltArray.or b.extractEltArray } w.store
    have hside : (i,Side.insert) ≠ (i,Side.extract) := by simp
    have hside' : (source,Side.insert) ≠ (source,Side.extract) := by simp
    rw [Function.update_of_ne hside',Function.update_of_ne (hkey _ _).symm,Function.update_of_ne (hkey _ _),
      Function.update_of_ne hside,Function.update_comm (hkey _ _).symm,← hmoved,← hmoved] at htake
    exact hrefs ▸ hrefs' ▸ htake
  · intro j c hj
    rw [blob_setBlob] at hj
    split at hj
    next =>
      cases hj
      exact ⟨(fun hw => by cases hw),(fun _ _ _ hw => by cases hw)⟩
    next =>
      rw [blob_setBlob] at hj
      split at hj
      next =>
        cases hj
        exact htidy
      next => exact h.tidy hj

/-- The target of a move without the array it read from. -/
theorem Sound.extractDropped (h : Sound w) (hb : w.blob i = some b) {st : Store Elts}
    (hheld : Held st (Function.update w.refs (i,.extract) none)) {b' : BlobObject}
    (hi : b'.insertEltArray = b.insertEltArray) (he : b'.extractEltArray = none) :
    Sound ({ w with store := st }.setBlob i b') := by
  refine h.setBlob _ ⟨(fun hw => by cases he.symm.trans hw),(fun _ _ _ hw => by cases he.symm.trans hw)⟩ ?_
  have hnone : holdOf b' .extract = none := by simp only [holdOf,he,Option.bind_none,Option.map_none]
  rw [refs_setBlob .extract,hnone]
  · exact hheld
  · intro t ht
    cases t
    · rw [refs_of_blob hb]
      simp only [holdOf,hi]
    · exact absurd rfl ht

/-- The target of a move with the array it read from, which it owns now if the source owned one. -/
theorem Sound.extractKept (h : Sound w) (hb : w.blob i = some b) {st : Store Elts} (hheld : Held st w.refs)
    {b' : BlobObject} (hi : b'.insertEltArray = b.insertEltArray) {p : Ptr} (hp : b.extractEltArray = some p)
    (he : b'.extractEltArray = some p) (hclaim : b'.extractDelete = true → Claimable w i p) :
    Sound ({ w with store := st }.setBlob i b') := by
  obtain ⟨a,path,rfl,href,-⟩ := h.extract_at hb hp
  refine h.setBlob _ ⟨(fun hw => by cases he.symm.trans hw),?_⟩ ?_
  · intro hd a' path' hw
    cases he.symm.trans hw
    obtain ⟨a'',heq,-⟩ := hclaim hd
    cases heq
    rfl
  · have hhold : holdOf b' .extract = some ⟨a,if b'.extractDelete then .owner else .guest⟩ := by
      simp only [holdOf,he]
      rfl
    rw [refs_setBlob .extract,hhold]
    · refine held_keep hheld href (by split <;> exact fun hf => by cases hf) ?_
      intro hd k q hk hq ho
      exact claimable_owner (hclaim hd) hk hq ho
    · intro t ht
      cases t
      · rw [refs_of_blob hb]
        simp only [holdOf,hi]
      · exact absurd rfl ht

theorem Sound.moveAssign (h : Sound w)
    (hu : ∀ b s p, w.blob i = some b → w.blob source = some s → b.extractDelete = true → b.extractEltArray = some p →
      Unshared w i p ∧ (i = source ∨ s.extractEltArray ≠ none))
    (hc : ∀ b s p, i ≠ source → w.blob i = some b → w.blob source = some s → s.extractEltArray = none →
      s.extractDelete = true → b.extractDelete = false → b.extractEltArray = some p → Claimable w i p) :
    Sound (w.moveAssign i source) := by
  unfold World.moveAssign
  split
  next b s hb hs =>
    obtain ⟨st,heq,hheld⟩ := h.deleteExtract hb (fun hd p hp => (hu b s p hb hs hd hp).1)
    dsimp only
    rw [heq]
    split
    next =>
      refine h.setBlob _ ⟨(fun hw => by cases hw),(fun _ _ _ hw => by cases hw)⟩ ?_
      have hdropped := (hheld.drop (i,.extract)).drop (i,.insert)
      rw [Function.update_idem] at hdropped
      rw [refs_setBlob_both]
      exact hdropped
    next hne =>
      -- what the target keeps of its own extract array
      let kept := if s.extractEltArray.isSome = true ∨ b.extractDelete = true then none else b.extractEltArray
      let b1 : BlobObject := { b with extractEltArray := kept, extractDelete := s.extractDelete }
      have hor : s.extractEltArray.or kept = s.extractEltArray.or b.extractEltArray := by
        cases hp : s.extractEltArray with
        | some p => rfl
        | none =>
          rw [Option.none_or,Option.none_or]
          by_cases hd : b.extractDelete = true
          · cases hbp : b.extractEltArray with
            | none => simp [kept,hbp]
            | some p => exact absurd hp ((hu b s p hb hs hd hbp).2.resolve_left hne)
          · simp [kept,hp,hd]
      have hkept : Sound ({ w with store := st }.setBlob i b1) := by
        by_cases hk : kept = none
        · have hdropped := hheld.drop (i,.extract)
          rw [Function.update_idem] at hdropped
          exact h.extractDropped hb hdropped rfl hk
        · have hcond : ¬(s.extractEltArray.isSome = true ∨ b.extractDelete = true) := fun hcond => hk (if_pos hcond)
          have hkeq : kept = b.extractEltArray := if_neg hcond
          have hsp : s.extractEltArray = none := Option.not_isSome_iff_eq_none.mp (fun hs => hcond (.inl hs))
          have hbd : b.extractDelete = false := Bool.eq_false_iff.mpr (fun hd => hcond (.inr hd))
          obtain ⟨p,hp⟩ := Option.ne_none_iff_exists'.mp hk
          rw [hbd,if_neg Bool.false_ne_true,Function.update_eq_self] at hheld
          exact h.extractKept hb hheld rfl (hkeq.symm.trans hp) hp
            (fun hd => hc b s _ hne hb hs hsp hd hbd (hkeq.symm.trans hp))
      have hb1 : ({ w with store := st }.setBlob i b1).blob i = some b1 := by rw [blob_setBlob,if_pos rfl]
      have hs1 : ({ w with store := st }.setBlob i b1).blob source = some s := by
        rw [blob_setBlob,if_neg (fun he => hne he.symm)]
        exact hs
      have hmoves := hkept.moves hne hb1 hs1 rfl
      rw [setBlob_twice] at hmoves
      change Sound ((World.setBlob i { s with
        insertEltArray := s.insertEltArray.or b.insertEltArray
        extractEltArray := s.extractEltArray.or kept } _).setBlob source _) at hmoves
      rw [hor] at hmoves
      exact hmoves
  next => exact h

end Objects

section Steps

/-- The steps that leave all arrays usable: an operation that fails with its exception or is asked by `has_failed` finds
no insert array (unless the error is that of `throw_too_many`, which forgets it) and no extract array of its own; a blob
that is inserted has no insert array; the target of a nested extraction has no delete flag; what is constructed from has
an extract array; an assignment does not take over a delete flag alone, and releases no array that is still in use. -/
def Careful (w : World) : Op → Prop
  | .insert i _ => InsertsWell w i
  | .insertBlob i source => InsertsWell w i ∧
      ∀ b s ind, w.blob i = some b → w.blob source = some s → w.goesTo b = some ind → s.insertEltArray = none
  | .extract i t => ExtractsWell w i t
  | .extractBlob i target => ExtractsWell w i .blob ∧
      ∀ b d x, w.blob i = some b → w.blob target = some d → w.found b .blob = .got x → d.extractDelete = false
  | .hasFailed i => ∀ b, w.blob i = some b → b.failed = true → Spared false b
  | .copyConstruct i source | .moveConstruct i source =>
      ∀ s, w.blob i = none → w.blob source = some s → s.extractEltArray ≠ none
  | .assign i source => ∀ b s p, i ≠ source → w.blob i = some b → w.blob source = some s → s.extractEltArray = none →
      s.extractDelete = true → b.extractEltArray = some p → Claimable w i p
  | .moveAssign i source =>
      (∀ b s p, w.blob i = some b → w.blob source = some s → b.extractDelete = true → b.extractEltArray = some p →
        Unshared w i p ∧ (i = source ∨ s.extractEltArray ≠ none)) ∧
      ∀ b s p, i ≠ source → w.blob i = some b → w.blob source = some s → s.extractEltArray = none →
        s.extractDelete = true → b.extractDelete = false → b.extractEltArray = some p → Claimable w i p
  | .destroy i => ∀ b p, w.blob i = some b → b.extractDelete = true → b.extractEltArray = some p → Unshared w i p
  | .make _ _ | .receive _ _ _ | .exceptions _ _ | .setDataEltNames _ _ | .setDataEltNb _ _ | .setCurrentDeltName _ _
  | .index _ _ => True

theorem sound_step {w : World} (h : Sound w) (op : Op) (hc : Careful w op) : Sound (step w op) := by
  cases op with
  | make i name => exact h.make name
  | receive i name es => exact h.receive name es
  | exceptions i fl => exact h.exceptions fl
  | setDataEltNames i names => exact h.setDataEltNames names
  | setDataEltNb i nb => exact h.setDataEltNb nb
  | setCurrentDeltName i na => exact h.setCurrentDeltName na
  | index i na => exact h.index na
  | insert i x => exact h.insert x hc
  | insertBlob i source => exact h.insertBlob source hc.1 hc.2
  | extract i t => exact h.extract t hc
  | extractBlob i target => exact h.extractBlob target hc.1 hc.2
  | hasFailed i => exact h.hasFailed hc
  | copyConstruct i source => exact h.construct hc
  | moveConstruct i source => exact h.moveConstruct hc
  | assign i source => exact h.assign hc
  | moveAssign i source => exact h.moveAssign hc.1 hc.2
  | destroy i => exact h.destroy hc

theorem sound_empty : Sound .empty where
  whole := rfl
  held := Held.empty
  tidy h := by cases h

end Steps

end CppTango.Client.Pipe
