import CppTango.Db.FileTables

namespace CppTango.Db

open CppTango.Lib CppTango.Device

section Blocks

theorem short_data {b : AttrBlock} (h : b.props.length < 2 ^ 15) :
    DbDatum.short ⟨b.name,[numText b.props.length]⟩ = some b.props.length := by
  unfold DbDatum.short
  simp only [toList_numText]
  rw [readSigned_intText 16 b.props.length (by omega)]
  simp

theorem putAttributes_data {bs : List AttrBlock} (h : ∀ b ∈ bs, b.props.length < 2 ^ 15) {fuel : Nat}
    (hf : (bs.flatMap AttrBlock.data).length ≤ fuel) :
    putAttributes fuel (bs.flatMap AttrBlock.data) =
      some (bs.length,bs.flatMap AttrBlock.strings) := by
  induction bs generalizing fuel with
  | nil =>
    rw [List.flatMap_nil,putAttributes]
    rfl
  | cons b bs ih =>
    rw [List.flatMap_cons] at hf ⊢
    cases fuel with
    | zero => simp [AttrBlock.data] at hf
    | succ fuel =>
      rw [AttrBlock.data,List.cons_append,putAttributes,short_data (h b List.mem_cons_self)]
      simp only [List.length_append]
      rw [if_pos (Nat.le_add_right _ _),List.take_left,List.drop_left]
      have hf' : (bs.flatMap AttrBlock.data).length ≤ fuel := by
        simp only [AttrBlock.data,List.cons_append,List.length_cons,List.length_append] at hf
        omega
      rw [ih (fun x hx => h x (List.mem_cons_of_mem _ hx)) hf']
      rfl

theorem putAttributeProperty_data {bs : List AttrBlock} (h : ∀ b ∈ bs, b.props.length < 2 ^ 15)
    (owner : String) : putAttributeProperty owner (bs.flatMap AttrBlock.data) =
      some (owner :: numText bs.length :: bs.flatMap AttrBlock.strings) := by
  unfold putAttributeProperty
  rw [putAttributes_data h (Nat.le_refl _)]
  rfl

end Blocks

section Attrs
variable {attrs : List TAttributeProperty}

def TAttributeProperty.key (t : TAttributeProperty) : List Char := lowerName t.attributeName

structure AttrsOk (attrs : List TAttributeProperty) : Prop where
  names : (attrs.map TAttributeProperty.key).Nodup
  filled : ∀ t ∈ attrs, t.attributeName ≠ ""
  props : ∀ t ∈ attrs, PropsOk t.properties

theorem picks_hasAttributeName (h : ∀ t ∈ attrs, t.attributeName ≠ "") (name : String) :
    Picks TAttributeProperty.key (hasAttributeName name) (lowerName name) attrs := by
  intro t ht
  unfold hasAttributeName
  rw [equalsIgnoreCase_iff]
  exact and_iff_left (h t ht)

def putInto (ds : DbData) (t : TAttributeProperty) : TAttributeProperty :=
  { t with properties := ds.foldl putOne t.properties }

theorem key_putInto (ds : DbData) (t : TAttributeProperty) : (putInto ds t).key = t.key := rfl

/-- One attribute of a request put into a list. -/
def putBlock (attrs : List TAttributeProperty) (b : AttrBlock) : List TAttributeProperty :=
  putFirst (hasAttributeName b.name) (putInto b.props) (putInto b.props ⟨b.name,[]⟩) attrs

def propsOf (attrs : List TAttributeProperty) (name : String) : List TProperty :=
  ((attrs.find? (hasAttributeName name)).map TAttributeProperty.properties).getD []

/-- A block of a request as the loops can read it. -/
structure BlockOk (b : AttrBlock) : Prop where
  name : b.name ≠ ""
  few : b.props.length < 2 ^ 15
  names : ∀ d ∈ b.props, d.name ≠ ""
  countable : Countable b.props

instance (b : AttrBlock) : Decidable (BlockOk b) :=
  decidable_of_iff (b.name ≠ "" ∧ b.props.length < 2 ^ 15 ∧ (∀ d ∈ b.props, d.name ≠ "") ∧
    Countable b.props) ⟨fun h => ⟨h.1,h.2.1,h.2.2.1,h.2.2.2⟩,fun h => ⟨h.name,h.few,h.names,h.countable⟩⟩

theorem propsOk_nil : PropsOk [] :=
  ⟨List.nodup_nil,fun p hp => (by cases hp),fun p hp => (by cases hp)⟩

theorem attrsOk_putBlock (h : AttrsOk attrs) {b : AttrBlock} (hb : BlockOk b) :
    AttrsOk (putBlock attrs b) := by
  refine ⟨nodup_putFirst (picks_hasAttributeName h.filled b.name) (key_putInto _) rfl h.names,?_,?_⟩
  · intro t ht
    rcases mem_putFirst ht with ht | rfl | ⟨u,hu,-,rfl⟩
    · exact h.filled t ht
    · exact hb.name
    · exact h.filled u hu
  · intro t ht
    rcases mem_putFirst ht with ht | rfl | ⟨u,hu,-,rfl⟩
    · exact h.props t ht
    · exact propsOk_putAll propsOk_nil hb.names hb.countable
    · exact propsOk_putAll (h.props u hu) hb.names hb.countable

theorem propsOk_propsOf (h : AttrsOk attrs) (name : String) : PropsOk (propsOf attrs name) := by
  unfold propsOf
  cases hf : attrs.find? (hasAttributeName name) with
  | none => exact propsOk_nil
  | some t => exact h.props t (List.mem_of_find?_eq_some hf)

variable (attrs) in
/-- The entry of an attribute, made when it is not there, then given its new properties. -/
theorem putBlock_eq {b : AttrBlock} (hb : b.name ≠ "") :
    ∃ att, (if attrs.any (hasAttributeName b.name) then attrs else attrs ++ [⟨b.name,[]⟩]).find?
        (hasAttributeName b.name) = some att ∧ att.properties = propsOf attrs b.name ∧
      updateFirst (hasAttributeName b.name)
        (fun t => { t with properties := b.props.foldl putOne (propsOf attrs b.name) })
        (if attrs.any (hasAttributeName b.name) then attrs else attrs ++ [⟨b.name,[]⟩]) =
          putBlock attrs b := by
  have hself : hasAttributeName b.name ⟨b.name,[]⟩ = true := equalsIgnoreCase_iff.mpr ⟨rfl,hb⟩
  unfold putBlock putFirst
  by_cases ha : attrs.any (hasAttributeName b.name) = true
  · obtain ⟨t,ht⟩ : ∃ t, attrs.find? (hasAttributeName b.name) = some t := by
      rw [← Option.isSome_iff_exists,List.find?_isSome]
      simpa using ha
    have hp : propsOf attrs b.name = t.properties := by
      unfold propsOf
      rw [ht]
      rfl
    rw [if_pos ha,if_pos ha]
    refine ⟨t,ht,hp.symm,?_⟩
    apply updateFirst_congr ht
    rw [hp]
    rfl
  · have ha' : attrs.any (hasAttributeName b.name) = false := Bool.eq_false_iff.mpr ha
    have hnone : attrs.find? (hasAttributeName b.name) = none := by
      rw [List.find?_eq_none]
      intro t ht hp
      exact ha (List.any_eq_true.mpr ⟨t,ht,hp⟩)
    have hp : propsOf attrs b.name = [] := by
      unfold propsOf
      rw [hnone]
      rfl
    rw [if_neg ha,if_neg ha]
    refine ⟨⟨b.name,[]⟩,?_,hp.symm,?_⟩
    · rw [List.find?_append,hnone,Option.none_or,List.find?_cons_of_pos hself]
    · rw [updateFirst_append ha' _ hself,hp]
      rfl

/-- Every attribute of the request but the last one has its properties in a harmless order. -/
def StraightBlocks : List TAttributeProperty → List AttrBlock → Prop
  | attrs,b :: b' :: bs =>
    Straight (propsOf attrs b.name) b.props b'.name ∧ StraightBlocks (putBlock attrs b) (b' :: bs)
  | _,_ => True

instance decStraightBlocks : ∀ (attrs : List TAttributeProperty) (bs : List AttrBlock),
    Decidable (StraightBlocks attrs bs)
  | _,[] => isTrue trivial
  | _,[_] => isTrue trivial
  | attrs,b :: b' :: bs => @instDecidableAnd (Straight (propsOf attrs b.name) b.props b'.name)
      (StraightBlocks (putBlock attrs b) (b' :: bs)) _ (decStraightBlocks _ (b' :: bs))

/-- The loop over attributes puts them one after the other. -/
theorem putAttrs_eq {bs : List AttrBlock} (h : AttrsOk attrs) (hb : ∀ b ∈ bs, BlockOk b)
    (hs : StraightBlocks attrs bs) (numProp numVals : Nat) :
    putAttrs bs.length numProp numVals attrs (bs.flatMap AttrBlock.strings) =
      some (bs.foldl putBlock attrs) := by
  induction bs generalizing attrs numProp numVals with
  | nil => rfl
  | cons b bs ih =>
    have hbo := hb b List.mem_cons_self
    obtain ⟨att,hfind,hprops,hupd⟩ := putBlock_eq attrs hbo.name
    have hcount : scan6 (numText b.props.length) = some b.props.length :=
      scan6_numText (Nat.lt_trans hbo.few (by decide))
    rw [List.length_cons,List.flatMap_cons,AttrBlock.strings,List.cons_append,List.cons_append,putAttrs,
      List.foldl_cons]
    simp only [hcount,Option.getD_some,hfind,hprops]
    cases bs with
    | nil =>
      rw [List.flatMap_nil,List.append_nil]
      by_cases hne : b.props = []
      · rw [hne] at hupd ⊢
        rw [List.foldl_nil] at hupd
        simp only [List.length_nil,putAttrProps,hupd,Bool.false_eq_true,if_false,putAttrs,List.foldl_nil]
      · obtain ⟨a,ha,hap,had⟩ := putAttrProps_last (propsOk_propsOf h b.name) hne hbo.countable
          hbo.names (Nat.le_refl _) numVals
        rw [ha]
        simp only [hap,hupd,had,if_true,List.foldl_nil]
    | cons b' bs =>
      obtain ⟨hst,hrest⟩ := hs
      obtain ⟨numVals',ha⟩ := putAttrProps_straight hbo.countable hst
        (numText b'.props.length :: (b'.props.flatMap DbDatum.strings ++ bs.flatMap AttrBlock.strings))
        numVals
      have hfront : (b' :: bs).flatMap AttrBlock.strings = b'.name :: numText b'.props.length ::
          (b'.props.flatMap DbDatum.strings ++ bs.flatMap AttrBlock.strings) := rfl
      rw [hfront,ha]
      simp only [hupd,Bool.false_eq_true,if_false]
      rw [← hfront]
      exact ih (attrsOk_putBlock h hbo) (fun x hx => hb x (List.mem_cons_of_mem _ hx)) hrest _ _

/-- Values by attribute and name. -/
abbrev AttrMap := List Char → PropMap

def attrMap (attrs : List TAttributeProperty) : AttrMap := fun k =>
  ((atKey TAttributeProperty.key k attrs).map (fun t => propMap t.properties)).getD (fun _ => none)

def AttrMap.put (m : AttrMap) (bs : List AttrBlock) : AttrMap :=
  bs.foldl (fun m b => Function.update m (lowerName b.name) ((m (lowerName b.name)).put b.props)) m

def AttrMap.delete (m : AttrMap) (attrName : String) (names : List String) : AttrMap :=
  Function.update m (lowerName attrName) ((m (lowerName attrName)).delete names)

theorem attrMap_putBlock (h : AttrsOk attrs) {b : AttrBlock} (hb : BlockOk b) :
    attrMap (putBlock attrs b) = Function.update (attrMap attrs) (lowerName b.name)
      ((attrMap attrs (lowerName b.name)).put b.props) := by
  funext k
  unfold attrMap putBlock
  rw [atKey_putFirst (picks_hasAttributeName h.filled b.name) (key_putInto _) rfl]
  by_cases hk : k = lowerName b.name
  · rw [if_pos hk,hk,Function.update_self]
    cases ht : atKey TAttributeProperty.key (lowerName b.name) attrs with
    | none => exact propMap_putAll propsOk_nil hb.names hb.countable
    | some t => exact propMap_putAll (h.props t (key_of_atKey ht).1) hb.names hb.countable
  · rw [if_neg hk,Function.update_of_ne hk]

theorem attrMap_putBlocks (h : AttrsOk attrs) {bs : List AttrBlock} (hb : ∀ b ∈ bs, BlockOk b) :
    AttrsOk (bs.foldl putBlock attrs) ∧ attrMap (bs.foldl putBlock attrs) = (attrMap attrs).put bs := by
  induction bs generalizing attrs with
  | nil => exact ⟨h,rfl⟩
  | cons b bs ih =>
    have hbo := hb b List.mem_cons_self
    obtain ⟨h1,h2⟩ := ih (attrsOk_putBlock h hbo) (fun x hx => hb x (List.mem_cons_of_mem _ hx))
    refine ⟨h1,?_⟩
    rw [List.foldl_cons,h2,attrMap_putBlock h hbo]
    rfl

theorem delete_none (names : List String) : PropMap.delete (fun _ => none) names = fun _ => none := by
  induction names with
  | nil => rfl
  | cons name names ih =>
    have hsame : Function.update (fun _ => none : PropMap) (lowerName name) none = fun _ => none :=
      Function.update_eq_self _ _
    unfold PropMap.delete at ih ⊢
    rw [List.foldl_cons,hsame,ih]

/-- Properties of one attribute deleted. -/
theorem attrMap_delete (h : AttrsOk attrs) (attrName : String) (names : List String) :
    AttrsOk (deleteAttributeProperties attrName names attrs) ∧
      attrMap (deleteAttributeProperties attrName names attrs) =
        (attrMap attrs).delete attrName names := by
  have hkey : ∀ t : TAttributeProperty, (if hasAttributeName attrName t = true then
      { t with properties := deleteProperties names t.properties } else t).key = t.key := by
    intro t
    split <;> rfl
  have hat : ∀ k, atKey TAttributeProperty.key k (deleteAttributeProperties attrName names attrs) =
      (atKey TAttributeProperty.key k attrs).map (fun t => if hasAttributeName attrName t = true then
        { t with properties := deleteProperties names t.properties } else t) := by
    intro k
    unfold atKey deleteAttributeProperties
    rw [List.find?_map]
    simp only [Function.comp_def,hkey]
  constructor
  · refine ⟨?_,?_,?_⟩
    · unfold deleteAttributeProperties
      rw [List.map_map]
      simp only [Function.comp_def,hkey]
      exact h.names
    · intro t ht
      obtain ⟨u,hu,rfl⟩ := List.mem_map.mp ht
      split
      · exact h.filled u hu
      · exact h.filled u hu
    · intro t ht
      obtain ⟨u,hu,rfl⟩ := List.mem_map.mp ht
      split
      · exact (propMap_delete (h.props u hu) names).1
      · exact h.props u hu
  · funext k
    unfold AttrMap.delete
    by_cases hk : k = lowerName attrName
    · rw [hk,Function.update_self]
      unfold attrMap
      rw [hat]
      cases ht : atKey TAttributeProperty.key (lowerName attrName) attrs with
      | none => exact (delete_none names).symm
      | some t =>
        obtain ⟨hm,htk⟩ := key_of_atKey ht
        have hp := (picks_hasAttributeName h.filled attrName t hm).mpr htk
        simp only [Option.map_some,Option.getD_some,hp,if_true]
        exact (propMap_delete (h.props t hm) names).2
    · rw [Function.update_of_ne hk]
      unfold attrMap
      rw [hat]
      cases ht : atKey TAttributeProperty.key k attrs with
      | none => rfl
      | some t =>
        obtain ⟨hm,htk⟩ := key_of_atKey ht
        have hp : ¬ hasAttributeName attrName t = true := by
          intro he
          exact hk (htk.symm.trans ((picks_hasAttributeName h.filled attrName t hm).mp he))
        simp only [Option.map_some,Option.getD_some,if_neg hp]

end Attrs
end CppTango.Db
