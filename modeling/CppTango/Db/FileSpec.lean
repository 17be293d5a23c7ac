import CppTango.Db.FileAttributes

namespace CppTango.Db

open CppTango.Lib CppTango.Device

section Book

/-- What the database is for: values by object and name, and by object, attribute and name. -/
@[ext] structure Book where
  props : Side → List Char → PropMap
  attrs : Side → List Char → AttrMap

inductive Request
  | putProperty (side : Side) (owner : String) (dbData : DbData)
  | deleteProperty (side : Side) (owner : String) (names : List String)
  | putAttributeProperty (side : Side) (owner : String) (blocks : List AttrBlock)
  | deleteAttributeProperty (side : Side) (owner attrName : String) (names : List String)
deriving DecidableEq, Repr

/-- Change what a table has for one object. -/
def onOwner {β : Type} (t : Side → List Char → β) (side : Side) (owner : String) (g : β → β) :
    Side → List Char → β :=
  Function.update t side (Function.update (t side) (lowerName owner) (g (t side (lowerName owner))))

/-- The effect of a request. Attribute properties of a class cannot be deleted: that request is
refused. -/
def Book.step (b : Book) : Request → Book
  | .putProperty side owner dbData =>
    { b with props := onOwner b.props side owner (fun m => m.put dbData) }
  | .deleteProperty side owner names =>
    { b with props := onOwner b.props side owner (fun m => m.delete names) }
  | .putAttributeProperty side owner blocks =>
    { b with attrs := onOwner b.attrs side owner (fun m => m.put blocks) }
  | .deleteAttributeProperty .device owner attrName names =>
    { b with attrs := onOwner b.attrs .device owner (fun m => m.delete attrName names) }
  | .deleteAttributeProperty .cls _ _ _ => b

end Book

section Requests

def nameData (names : List String) : DbData := names.map (fun name => ⟨name,[]⟩)

/-- A request from the client's call to the store. -/
def exec (s : TServer) : Request → Option TServer
  | .putProperty side owner dbData => dbPutProperty side s (putProperty owner dbData)
  | .deleteProperty side owner names => dbDeleteProperty side s (namesRequest owner (nameData names))
  | .putAttributeProperty side owner blocks =>
    (putAttributeProperty owner (blocks.flatMap AttrBlock.data)).bind (dbPutAttributeProperty side s)
  | .deleteAttributeProperty side owner attrName names =>
    dbDeleteAttributeProperty side s (namesRequest owner (nameData (attrName :: names)))

def run (s : TServer) (rs : List Request) : Option TServer := rs.foldlM exec s

def getProperty (side : Side) (s : TServer) (owner : String) (names : List String) : Option DbData :=
  match side with
  | .device => decodeProperty true (dbGetDeviceProperty s (namesRequest owner (nameData names)))
  | .cls => decodeProperty false (dbGetClassProperty s (namesRequest owner (nameData names)))

def getAttributeProperty (side : Side) (s : TServer) (owner : String) (names : List String) :
    Option DbData :=
  match side with
  | .device => decodeDeviceAttributeProperty
      (dbGetAttributeProperty .device s (namesRequest owner (nameData names)))
  | .cls => decodeClassAttributeProperty
      (dbGetAttributeProperty .cls s (namesRequest owner (nameData names)))

theorem namesRequest_eq (owner : String) (names : List String) :
    namesRequest owner (nameData names) = owner :: names := by
  unfold namesRequest nameData
  rw [List.map_map]
  simp [Function.comp_def]

end Requests

section Store
variable {s : TServer} {side : Side}

def TDevice.key (d : TDevice) : List Char := lowerName d.name

structure HolderOk (d : TDevice) : Prop where
  name : d.name ≠ ""
  props : PropsOk d.properties
  attrs : AttrsOk d.attributeProperties

/-- A store in which every name is there once at its level. -/
structure StoreOk (s : TServer) : Prop where
  names : ∀ side, ((s.holders side).map TDevice.key).Nodup
  holders : ∀ side, ∀ d ∈ s.holders side, HolderOk d

/-- A part of the object of a name. -/
def lookup {β : Type} (proj : TDevice → β) (dflt : β) (s : TServer) (side : Side) (k : List Char) : β :=
  ((atKey TDevice.key k (s.holders side)).map proj).getD dflt

def book (s : TServer) : Book where
  props := lookup (fun d => propMap d.properties) (fun _ => none) s
  attrs := lookup (fun d => attrMap d.attributeProperties) (fun _ _ => none) s

theorem picks_named (h : StoreOk s) (side : Side) (name : String) :
    Picks TDevice.key (named name) (lowerName name) (s.holders side) := by
  intro d hd
  unfold named
  rw [equalsIgnoreCase_iff]
  exact and_iff_left (h.holders side d hd).name

theorem holders_update (s : TServer) (side : Side) (name : String) (f : TDevice → TDevice) :
    (s.update side name f).holders side = updateFirst (named name) f (s.holders side) := by
  cases side with
  | device => rfl
  | cls =>
    change List.map TTangoClass.toTDevice (updateFirst _ _ s.classes) = updateFirst _ _ (List.map _ _)
    apply map_updateFirst
    · exact fun _ => rfl
    · exact fun _ => rfl

theorem holders_update_ne (s : TServer) {side side' : Side} (h : side' ≠ side) (name : String)
    (f : TDevice → TDevice) : (s.update side name f).holders side' = s.holders side' := by
  cases side with
  | device =>
    cases side' with
    | device => exact absurd rfl h
    | cls => rfl
  | cls =>
    cases side' with
    | device => rfl
    | cls => exact absurd rfl h

/-- A change that keeps names and order keeps a store in order. -/
theorem storeOk_update (h : StoreOk s) (side : Side) (name : String) {f : TDevice → TDevice}
    (hn : ∀ d, (f d).name = d.name) (hf : ∀ d ∈ s.holders side, named name d = true → HolderOk d →
      HolderOk (f d)) : StoreOk (s.update side name f) := by
  have hkey : ∀ d, (f d).key = d.key := fun d => by rw [TDevice.key,TDevice.key,hn]
  constructor
  · intro side'
    by_cases hs : side' = side
    · subst hs
      rw [holders_update,keys_updateFirst hkey]
      exact h.names side'
    · rw [holders_update_ne s hs]
      exact h.names side'
  · intro side' d hd
    by_cases hs : side' = side
    · subst hs
      rw [holders_update] at hd
      rcases mem_updateFirst hd with hd | ⟨e,he,hp,rfl⟩
      · exact h.holders side' d hd
      · exact hf e he hp (h.holders side' e he)
    · rw [holders_update_ne s hs] at hd
      exact h.holders side' d hd

/-- What a change of one object does to a table. -/
theorem lookup_update {β : Type} {proj : TDevice → β} {dflt : β} (h : StoreOk s) (side : Side)
    (name : String) {f : TDevice → TDevice} (hn : ∀ d, (f d).name = d.name) {g : β → β}
    (hg : ∀ d ∈ s.holders side, named name d = true → proj (f d) = g (proj d))
    (hnone : (s.holders side).any (named name) = true ∨ g dflt = dflt) :
    lookup proj dflt (s.update side name f) = onOwner (lookup proj dflt s) side name g := by
  have hkey : ∀ d, (f d).key = d.key := fun d => by rw [TDevice.key,TDevice.key,hn]
  have hp := picks_named h side name
  funext side' k
  unfold onOwner
  by_cases hs : side' = side
  · subst hs
    rw [Function.update_self]
    unfold lookup
    rw [holders_update,atKey_updateFirst hp hkey]
    by_cases hk : k = lowerName name
    · rw [if_pos hk,hk,Function.update_self]
      cases hd : atKey TDevice.key (lowerName name) (s.holders side') with
      | none =>
        rw [any_of_picks hp,hd] at hnone
        rcases hnone with hnone | hnone
        · cases hnone
        · exact hnone.symm
      | some d =>
        obtain ⟨hm,hdk⟩ := key_of_atKey hd
        exact hg d hm ((hp d hm).mpr hdk)
    · rw [if_neg hk,Function.update_of_ne hk]
  · rw [Function.update_of_ne hs]
    unfold lookup
    rw [holders_update_ne s hs]

theorem onOwner_id {β : Type} (t : Side → List Char → β) (side : Side) (owner : String) :
    onOwner t side owner (fun x => x) = t := by
  unfold onOwner
  rw [Function.update_eq_self,Function.update_eq_self]

/-- The properties of one object change. -/
theorem book_props (h : StoreOk s) (side : Side) (name : String) {f : TDevice → List TProperty}
    {g : PropMap → PropMap}
    (hok : ∀ d ∈ s.holders side, named name d = true → PropsOk (f d) ∧ propMap (f d) = g (propMap d.properties))
    (hnone : (s.holders side).any (named name) = true ∨ g (fun _ => none) = fun _ => none) :
    StoreOk (s.update side name (fun d => { d with properties := f d })) ∧
      book (s.update side name (fun d => { d with properties := f d })) =
        { book s with props := onOwner (book s).props side name g } := by
  constructor
  · apply storeOk_update h
    · exact fun _ => rfl
    · exact fun d hd hn hdok => ⟨hdok.name,(hok d hd hn).1,hdok.attrs⟩
  · have hattrs : (book (s.update side name (fun d => { d with properties := f d }))).attrs =
        onOwner (book s).attrs side name (fun m => m) := by
      apply lookup_update h
      · exact fun _ => rfl
      · exact fun _ _ _ => rfl
      · exact Or.inr rfl
    have hprops : (book (s.update side name (fun d => { d with properties := f d }))).props =
        onOwner (book s).props side name g := by
      apply lookup_update h
      · exact fun _ => rfl
      · exact fun d hd hn => (hok d hd hn).2
      · exact hnone
    rw [onOwner_id] at hattrs
    exact Book.ext hprops hattrs

/-- The attribute properties of one object change. -/
theorem book_attrs (h : StoreOk s) (side : Side) (name : String) {f : TDevice → List TAttributeProperty}
    {g : AttrMap → AttrMap}
    (hok : ∀ d ∈ s.holders side, named name d = true →
      AttrsOk (f d) ∧ attrMap (f d) = g (attrMap d.attributeProperties))
    (hnone : (s.holders side).any (named name) = true ∨ g (fun _ _ => none) = fun _ _ => none) :
    StoreOk (s.update side name (fun d => { d with attributeProperties := f d })) ∧
      book (s.update side name (fun d => { d with attributeProperties := f d })) =
        { book s with attrs := onOwner (book s).attrs side name g } := by
  constructor
  · apply storeOk_update h
    · exact fun _ => rfl
    · exact fun d hd hn hdok => ⟨hdok.name,hdok.props,(hok d hd hn).1⟩
  · have hprops : (book (s.update side name (fun d => { d with attributeProperties := f d }))).props =
        onOwner (book s).props side name (fun m => m) := by
      apply lookup_update h
      · exact fun _ => rfl
      · exact fun _ _ _ => rfl
      · exact Or.inr rfl
    have hattrs : (book (s.update side name (fun d => { d with attributeProperties := f d }))).attrs =
        onOwner (book s).attrs side name g := by
      apply lookup_update h
      · exact fun _ => rfl
      · exact fun d hd hn => (hok d hd hn).2
      · exact hnone
    rw [onOwner_id] at hprops
    exact Book.ext hprops hattrs

end Store

section Steady

def attrsOf (s : TServer) (side : Side) (owner : String) : List TAttributeProperty :=
  (((s.holders side).find? (named owner)).map TDevice.attributeProperties).getD []

/-- What a put request has to be for the store. -/
def Steady (s : TServer) : Request → Prop
  | .putProperty side owner dbData => (s.holders side).any (named owner) = true ∧
      dbData.length < 10 ^ 6 ∧ (∀ d ∈ dbData, d.name ≠ "") ∧ Countable dbData
  | .putAttributeProperty side owner blocks => (s.holders side).any (named owner) = true ∧
      blocks.length < 10 ^ 6 ∧ (∀ b ∈ blocks, BlockOk b) ∧ StraightBlocks (attrsOf s side owner) blocks
  | _ => True

instance (s : TServer) (r : Request) : Decidable (Steady s r) :=
  match r with
  | .putProperty _ _ _ => inferInstanceAs (Decidable (_ ∧ _ ∧ _ ∧ _))
  | .putAttributeProperty _ _ _ => inferInstanceAs (Decidable (_ ∧ _ ∧ _ ∧ _))
  | .deleteProperty _ _ _ => isTrue trivial
  | .deleteAttributeProperty _ _ _ _ => isTrue trivial

variable {s : TServer}

theorem find_named (h : StoreOk s) {side : Side} {owner : String} {d : TDevice}
    (hf : (s.holders side).find? (named owner) = some d) {e : TDevice} (he : e ∈ s.holders side)
    (hn : named owner e = true) : e = d := by
  have hd := List.mem_of_find?_eq_some hf
  have hdn : named owner d = true := by simpa using List.find?_some hf
  have hp := picks_named h side owner
  have hk : e.key = d.key := ((hp e he).mp hn).trans ((hp d hd).mp hdn).symm
  exact List.inj_on_of_nodup_map (h.names side) he hd hk

theorem exists_named {side : Side} {owner : String} (h : (s.holders side).any (named owner) = true) :
    ∃ d, (s.holders side).find? (named owner) = some d := by
  rw [← Option.isSome_iff_exists,List.find?_isSome]
  simpa using h

theorem exec_putProperty (h : StoreOk s) {side : Side} {owner : String} {ds : DbData}
    (hs : Steady s (.putProperty side owner ds)) :
    ∃ s', exec s (.putProperty side owner ds) = some s' ∧ StoreOk s' ∧
      book s' = (book s).step (.putProperty side owner ds) := by
  obtain ⟨hin,hlen,hnames,hc⟩ := hs
  obtain ⟨d,hd⟩ := exists_named hin
  have hdok := h.holders side d (List.mem_of_find?_eq_some hd)
  have hput : putProperties (side = .cls) (putProperty owner ds) d.properties =
      some (ds.foldl putOne d.properties) := by
    unfold putProperties putProperty
    simp only [scan6_numText hlen,Option.getD_some]
    exact putProps_eq _ hc 0 d.properties
  have hbook := book_props h side owner (f := fun _ => ds.foldl putOne d.properties)
    (g := fun m => m.put ds) (by
      intro e he hn
      rw [find_named h hd he hn]
      exact ⟨propsOk_putAll hdok.props hnames hc,propMap_putAll hdok.props hnames hc⟩) (Or.inl hin)
  refine ⟨_,?_,hbook⟩
  have he : putProperty owner ds = owner :: numText ds.length :: ds.flatMap DbDatum.strings := rfl
  rw [he] at hput
  simp only [exec,dbPutProperty,he,hd,hput,Option.map_some]

theorem exec_deleteProperty (h : StoreOk s) (side : Side) (owner : String) (names : List String) :
    ∃ s', exec s (.deleteProperty side owner names) = some s' ∧ StoreOk s' ∧
      book s' = (book s).step (.deleteProperty side owner names) := by
  have hbook := book_props h side owner (f := fun d => deleteProperties names d.properties)
    (g := fun m => m.delete names) (by
      intro d hd hn
      exact propMap_delete (h.holders side d hd).props names) (Or.inr (delete_none names))
  refine ⟨_,?_,hbook⟩
  simp only [exec,dbDeleteProperty,namesRequest_eq]

theorem exec_putAttributeProperty (h : StoreOk s) {side : Side} {owner : String} {bs : List AttrBlock}
    (hs : Steady s (.putAttributeProperty side owner bs)) :
    ∃ s', exec s (.putAttributeProperty side owner bs) = some s' ∧ StoreOk s' ∧
      book s' = (book s).step (.putAttributeProperty side owner bs) := by
  obtain ⟨hin,hlen,hbs,hst⟩ := hs
  obtain ⟨d,hd⟩ := exists_named hin
  have hdok := h.holders side d (List.mem_of_find?_eq_some hd)
  have hattrs : attrsOf s side owner = d.attributeProperties := by
    unfold attrsOf
    rw [hd]
    rfl
  rw [hattrs] at hst
  have henc := putAttributeProperty_data (fun b hb => (hbs b hb).few) owner
  have hput : putAttributeProperties (owner :: numText bs.length :: bs.flatMap AttrBlock.strings)
      d.attributeProperties = some (bs.foldl putBlock d.attributeProperties) := by
    unfold putAttributeProperties
    simp only [scan6_numText hlen,Option.getD_some]
    exact putAttrs_eq hdok.attrs hbs hst 0 0
  have hbook := book_attrs h side owner (f := fun _ => bs.foldl putBlock d.attributeProperties)
    (g := fun m => m.put bs) (by
      intro e he hn
      rw [find_named h hd he hn]
      exact attrMap_putBlocks hdok.attrs hbs) (Or.inl hin)
  refine ⟨_,?_,hbook⟩
  simp only [exec,henc,Option.bind_some,dbPutAttributeProperty,hd,hput,Option.map_some]

theorem exec_deleteAttributeProperty (h : StoreOk s) (side : Side) (owner attrName : String)
    (names : List String) :
    ∃ s', exec s (.deleteAttributeProperty side owner attrName names) = some s' ∧ StoreOk s' ∧
      book s' = (book s).step (.deleteAttributeProperty side owner attrName names) := by
  cases side with
  | cls => exact ⟨s,by simp [exec,dbDeleteAttributeProperty],h,rfl⟩
  | device =>
    have hnone : AttrMap.delete (fun _ _ => none) attrName names = fun _ _ => none := by
      unfold AttrMap.delete
      rw [delete_none]
      exact Function.update_eq_self _ _
    have hbook := book_attrs h .device owner
      (f := fun d => deleteAttributeProperties attrName names d.attributeProperties)
      (g := fun m => m.delete attrName names) (by
        intro d hd hn
        exact attrMap_delete (h.holders .device d hd).attrs attrName names) (Or.inr hnone)
    refine ⟨_,?_,hbook⟩
    simp only [exec,dbDeleteAttributeProperty,namesRequest_eq]

/-- A request does to the store what it does to the book. -/
theorem exec_spec (h : StoreOk s) {r : Request} (hs : Steady s r) :
    ∃ s', exec s r = some s' ∧ StoreOk s' ∧ book s' = (book s).step r := by
  cases r with
  | putProperty side owner ds => exact exec_putProperty h hs
  | deleteProperty side owner names => exact exec_deleteProperty h side owner names
  | putAttributeProperty side owner bs => exact exec_putAttributeProperty h hs
  | deleteAttributeProperty side owner attrName names =>
    exact exec_deleteAttributeProperty h side owner attrName names

/-- Every request of a sequence meets its condition in the store it finds. -/
def SteadyRun (s : TServer) : List Request → Prop
  | [] => True
  | r :: rs => Steady s r ∧ ∀ s' ∈ exec s r, SteadyRun s' rs

instance decSteadyRun : ∀ (s : TServer) (rs : List Request), Decidable (SteadyRun s rs)
  | _,[] => isTrue trivial
  | s,r :: rs =>
    have : ∀ s', Decidable (SteadyRun s' rs) := fun s' => decSteadyRun s' rs
    inferInstanceAs (Decidable (Steady s r ∧ ∀ s' ∈ exec s r, SteadyRun s' rs))

theorem run_spec (h : StoreOk s) {rs : List Request} (hs : SteadyRun s rs) :
    ∃ s', run s rs = some s' ∧ StoreOk s' ∧ book s' = rs.foldl Book.step (book s) := by
  induction rs generalizing s with
  | nil => exact ⟨s,rfl,h,rfl⟩
  | cons r rs ih =>
    obtain ⟨s₁,he,hok,hb⟩ := exec_spec h hs.1
    obtain ⟨s₂,hr,hok₂,hb₂⟩ := ih hok (hs.2 s₁ he)
    refine ⟨s₂,?_,hok₂,?_⟩
    · unfold run at hr ⊢
      rw [List.foldlM_cons,he]
      exact hr
    · rw [hb₂,hb,List.foldl_cons]

end Steady
end CppTango.Db
