import CppTango.Db.FileSpec

namespace CppTango.Db

open CppTango.Lib CppTango.Device

section Properties
variable {props : List TProperty}

/-- The answer for a name: the values there are, or none. -/
def Answered (m : PropMap) (name : String) (d : DbDatum) : Prop :=
  lowerName d.name = lowerName name ∧ d.valueString = (m (lowerName name)).getD []

theorem find_asked (h : PropsOk props) (name : String) :
    props.find? (fun p => equalsIgnoreCase name p.name) = atKey TProperty.key (lowerName name) props := by
  apply find_of_picks
  intro p hp
  rw [equalsIgnoreCase_iff]
  constructor
  · exact fun he => he.1.symm
  · intro he
    refine ⟨he.symm,?_⟩
    rintro rfl
    exact h.filled p hp (lowerName_nil.mp (he.trans (lowerName_nil.mpr rfl)))

/-- A stored empty list is asked for at the end of the names only. -/
def Asked (m : PropMap) : List String → Prop
  | name :: next :: names => m (lowerName name) ≠ some [] ∧ Asked m (next :: names)
  | _ => True

theorem readProps_device (h : PropsOk props) {names : List String} (ha : Asked (propMap props) names) :
    ∃ ds c, readProps true names.length (names.flatMap (deviceProp props)) = some (ds,c) ∧
      List.Forall₂ (Answered (propMap props)) names ds := by
  induction names with
  | nil => exact ⟨[],[],rfl,List.Forall₂.nil⟩
  | cons name names ih =>
    have ha' : Asked (propMap props) names := by
      cases names with
      | nil => trivial
      | cons next names => exact ha.2
    obtain ⟨ds,c,hr,hall⟩ := ih ha'
    rw [List.length_cons,List.flatMap_cons]
    cases hk : atKey TProperty.key (lowerName name) props with
    | none =>
      have hchunk : deviceProp props name = [name,"0"," "] := by
        unfold deviceProp
        rw [find_asked h,hk]
      refine ⟨⟨name,[]⟩ :: ds,c,?_,List.Forall₂.cons ⟨rfl,?_⟩ hall⟩
      · rw [hchunk,List.cons_append,List.cons_append,List.cons_append,List.nil_append,readProps_dummy,hr]
        rfl
      · unfold propMap
        rw [hk]
        rfl
    | some p =>
      obtain ⟨hp,hpk⟩ := key_of_atKey hk
      have hchunk : deviceProp props name = DbDatum.strings ⟨p.name,p.value⟩ := by
        unfold deviceProp
        rw [find_asked h,hk]
        rfl
      have hans : Answered (propMap props) name ⟨p.name,p.value⟩ := by
        refine ⟨hpk,?_⟩
        unfold propMap
        rw [hk]
        rfl
      rw [hchunk]
      by_cases hv : p.value = []
      · have hnil : names = [] := by
          cases names with
          | nil => rfl
          | cons next names =>
            apply absurd _ ha.1
            unfold propMap
            rw [hk,Option.map_some,hv]
        subst hnil
        have hend := readProps_end [⟨p.name,p.value⟩] (by simpa using h.sized p hp) (by simp)
        exact ⟨_,_,hend,List.Forall₂.cons hans List.Forall₂.nil⟩
      · refine ⟨⟨p.name,p.value⟩ :: ds,c,?_,List.Forall₂.cons hans hall⟩
        rw [readProps_cons _ (h.sized p hp) (fun _ => hv),hr]
        rfl

theorem readProps_class (h : PropsOk props) (names : List String) :
    ∃ ds c, readProps false names.length (names.flatMap (classProp props)) = some (ds,c) ∧
      List.Forall₂ (Answered (propMap props)) names ds := by
  induction names with
  | nil => exact ⟨[],[],rfl,List.Forall₂.nil⟩
  | cons name names ih =>
    obtain ⟨ds,c,hr,hall⟩ := ih
    rw [List.length_cons,List.flatMap_cons]
    have hchunk : ∃ vals, classProp props name = DbDatum.strings ⟨name,vals⟩ ∧
        vals = (propMap props (lowerName name)).getD [] ∧ vals.length < 2 ^ 31 := by
      unfold classProp propMap
      rw [find_asked h]
      cases hk : atKey TProperty.key (lowerName name) props with
      | none =>
        refine ⟨[],?_,rfl,by decide⟩
        rw [DbDatum.strings,List.length_nil,numText_zero]
      | some p => exact ⟨p.value,rfl,rfl,h.sized p (key_of_atKey hk).1⟩
    obtain ⟨vals,hc,hv,hl⟩ := hchunk
    refine ⟨⟨name,vals⟩ :: ds,c,?_,List.Forall₂.cons ⟨rfl,hv⟩ hall⟩
    rw [hc,readProps_cons _ hl (fun he => (by cases he)),hr]
    rfl

end Properties

section Attributes
variable {attrs : List TAttributeProperty}

def TProperty.datum (p : TProperty) : DbDatum := ⟨p.name,p.value⟩

/-- What is sent for an attribute. -/
def answerBlock (attrs : List TAttributeProperty) (name : String) : AttrBlock :=
  ⟨name,(propsOf attrs name).map TProperty.datum⟩

theorem strings_answerBlock (attrs : List TAttributeProperty) (name : String) :
    (answerBlock attrs name).strings = name :: numText (propsOf attrs name).length ::
      (propsOf attrs name).flatMap (fun p => propStrings p.name p.value) := by
  unfold AttrBlock.strings answerBlock
  rw [List.length_map,List.flatMap_map]
  rfl

theorem attrStrings_miss {out : List String} {name : String}
    (h : ∀ t ∈ attrs, equalsIgnoreCase t.attributeName name = false) :
    attrs.foldl (fun out t => if equalsIgnoreCase t.attributeName name then
      out.dropLast ++ numText t.properties.length ::
        t.properties.flatMap (fun p => propStrings p.name p.value)
      else out) out = out := by
  induction attrs with
  | nil => rfl
  | cons t attrs ih =>
    rw [List.foldl_cons,h t List.mem_cons_self,if_neg (by decide)]
    exact ih (fun u hu => h u (List.mem_cons_of_mem _ hu))

/-- An attribute has one entry at most, so its number of properties is written over the zero. -/
theorem attrStrings_eq (h : AttrsOk attrs) (name : String) :
    attrStrings attrs name = (answerBlock attrs name).strings := by
  rw [strings_answerBlock]
  unfold attrStrings propsOf
  induction attrs with
  | nil =>
    change [name,"0"] = name :: numText 0 :: []
    rw [numText_zero]
  | cons t attrs ih =>
    have hok : AttrsOk attrs := ⟨(List.nodup_cons.mp h.names).2,
      fun u hu => h.filled u (List.mem_cons_of_mem _ hu),fun u hu => h.props u (List.mem_cons_of_mem _ hu)⟩
    rw [List.foldl_cons]
    by_cases ht : hasAttributeName name t = true
    · have ht' : equalsIgnoreCase t.attributeName name = true := ht
      have hmiss : ∀ u ∈ attrs, equalsIgnoreCase u.attributeName name = false := by
        intro u hu
        rw [Bool.eq_false_iff]
        intro he
        apply (List.nodup_cons.mp h.names).1
        have hk : t.key = u.key :=
          (equalsIgnoreCase_iff.mp ht').1.trans (equalsIgnoreCase_iff.mp he).1.symm
        rw [hk]
        exact List.mem_map_of_mem hu
      rw [if_pos ht',attrStrings_miss hmiss,List.find?_cons_of_pos ht]
      rfl
    · have ht' : ¬ equalsIgnoreCase t.attributeName name = true := ht
      rw [if_neg ht',List.find?_cons_of_neg ht]
      exact ih hok

/-- Values by name, of the properties a client has got. -/
def dataMap (ds : DbData) : PropMap := fun k =>
  (atKey (fun d : DbDatum => lowerName d.name) k ds).map DbDatum.valueString

/-- The answer for an attribute: exactly its properties, each of them once. -/
def AnsweredAttr (m : AttrMap) (name : String) (b : AttrBlock) : Prop :=
  b.name = name ∧ (b.props.map (fun d => lowerName d.name)).Nodup ∧
    dataMap b.props = m (lowerName name)

theorem dataMap_datum (props : List TProperty) : dataMap (props.map TProperty.datum) = propMap props := by
  funext k
  unfold dataMap propMap atKey
  rw [List.find?_map,Option.map_map]
  rfl

theorem attrMap_propsOf (h : AttrsOk attrs) (name : String) :
    attrMap attrs (lowerName name) = propMap (propsOf attrs name) := by
  unfold attrMap propsOf
  rw [find_of_picks (picks_hasAttributeName h.filled name)]
  cases atKey TAttributeProperty.key (lowerName name) attrs <;> rfl

theorem answered_block (h : AttrsOk attrs) (name : String) :
    AnsweredAttr (attrMap attrs) name (answerBlock attrs name) := by
  refine ⟨rfl,?_,?_⟩
  · have := (propsOk_propsOf h name).names
    unfold answerBlock
    rw [List.map_map]
    exact this
  · unfold answerBlock
    rw [dataMap_datum,attrMap_propsOf h]

end Attributes

section Gets
variable {s : TServer} {side : Side} {owner : String} {names : List String}

/-- What a client can ask for without losing its place in the reply. -/
def SteadyGet (s : TServer) (side : Side) (owner : String) (names : List String) : Prop :=
  names.length < 2 ^ 32 ∧ (side = .device → Asked ((book s).props .device (lowerName owner)) names)

/-- The number of properties that the client's variable can hold. -/
def maxProps : Side → Nat
  | .device => 2 ^ 16
  | .cls => 2 ^ 15

def SteadyAttrGet (s : TServer) (side : Side) (owner : String) (names : List String) : Prop :=
  names.length < 2 ^ 32 ∧ (∀ name ∈ names, (propsOf (attrsOf s side owner) name).length < maxProps side) ∧
    Gapless (names.map (answerBlock (attrsOf s side owner)))

theorem find_owner (h : StoreOk s) (side : Side) (owner : String) :
    (s.holders side).find? (fun d => equalsIgnoreCase owner d.name) =
      atKey TDevice.key (lowerName owner) (s.holders side) := by
  apply find_of_picks
  intro d hd
  rw [equalsIgnoreCase_iff]
  constructor
  · exact fun he => he.1.symm
  · intro he
    refine ⟨he.symm,?_⟩
    rintro rfl
    exact (h.holders side d hd).name (lowerName_nil.mp (he.trans (lowerName_nil.mpr rfl)))

/-- The properties of an object; one that is not there has none. -/
def ownerProps (s : TServer) (side : Side) (owner : String) : List TProperty :=
  ((atKey TDevice.key (lowerName owner) (s.holders side)).map TDevice.properties).getD []

theorem ownerProps_ok (h : StoreOk s) (side : Side) (owner : String) :
    PropsOk (ownerProps s side owner) ∧
      (book s).props side (lowerName owner) = propMap (ownerProps s side owner) := by
  unfold book ownerProps lookup
  simp only
  cases hk : atKey TDevice.key (lowerName owner) (s.holders side) with
  | none => exact ⟨propsOk_nil,rfl⟩
  | some d => exact ⟨(h.holders side d (key_of_atKey hk).1).props,rfl⟩

theorem attrsOf_ok (h : StoreOk s) (side : Side) (owner : String) :
    AttrsOk (attrsOf s side owner) ∧
      (book s).attrs side (lowerName owner) = attrMap (attrsOf s side owner) := by
  unfold book attrsOf lookup
  rw [find_of_picks (picks_named h side owner)]
  simp only
  cases hk : atKey TDevice.key (lowerName owner) (s.holders side) with
  | none => exact ⟨⟨List.nodup_nil,fun t ht => (by cases ht),fun t ht => (by cases ht)⟩,rfl⟩
  | some d => exact ⟨(h.holders side d (key_of_atKey hk).1).attrs,rfl⟩

theorem deviceReply_eq (h : StoreOk s) (owner : String) (names : List String) :
    dbGetDeviceProperty s (owner :: names) = owner :: numText names.length ::
      names.flatMap (deviceProp (ownerProps s .device owner)) := by
  have hf := find_owner h .device owner
  change s.devices.find? _ = _ at hf
  unfold dbGetDeviceProperty ownerProps
  simp only [hf]
  cases atKey TDevice.key (lowerName owner) (s.holders .device) <;> rfl

theorem classReply_eq (h : StoreOk s) (owner : String) (names : List String) :
    dbGetClassProperty s (owner :: names) = owner :: numText names.length ::
      names.flatMap (classProp (ownerProps s .cls owner)) := by
  have hf := find_owner h .cls owner
  change (s.classes.map TTangoClass.toTDevice).find? _ = _ at hf
  rw [List.find?_map] at hf
  unfold dbGetClassProperty ownerProps
  rw [← hf]
  simp only [Function.comp_def]
  cases s.classes.find? (fun c => equalsIgnoreCase owner c.name) <;> rfl

/-- Every name gets the values there are. -/
theorem getProperty_answers (h : StoreOk s) (hs : SteadyGet s side owner names) :
    ∃ ds, getProperty side s owner names = some ds ∧
      List.Forall₂ (Answered ((book s).props side (lowerName owner))) names ds := by
  obtain ⟨hlen,hasked⟩ := hs
  obtain ⟨hok,hbook⟩ := ownerProps_ok h side owner
  rw [hbook]
  cases side with
  | device =>
    have ha := hasked rfl
    rw [hbook] at ha
    obtain ⟨ds,c,hr,hall⟩ := readProps_device hok ha
    refine ⟨ds,?_,hall⟩
    simp only [getProperty,namesRequest_eq,deviceReply_eq h,decodeProperty,readUInt_numText hlen,hr,
      Option.map_some]
  | cls =>
    obtain ⟨ds,c,hr,hall⟩ := readProps_class hok names
    refine ⟨ds,?_,hall⟩
    simp only [getProperty,namesRequest_eq,classReply_eq h,decodeProperty,readUInt_numText hlen,hr,
      Option.map_some]

theorem attrReply_eq (h : StoreOk s) (side : Side) (owner : String) (names : List String) :
    dbGetAttributeProperty side s (owner :: names) = owner :: numText names.length ::
      (names.map (answerBlock (attrsOf s side owner))).flatMap AttrBlock.strings := by
  have hblocks : names.flatMap (attrStrings (attrsOf s side owner)) =
      (names.map (answerBlock (attrsOf s side owner))).flatMap AttrBlock.strings := by
    rw [List.flatMap_map]
    exact List.flatMap_congr (fun name _ => attrStrings_eq (attrsOf_ok h side owner).1 name)
  rw [← hblocks]
  unfold dbGetAttributeProperty attrsOf
  simp only
  cases (s.holders side).find? (named owner) <;> rfl

/-- Every attribute gets its properties. -/
theorem getAttributeProperty_answers (h : StoreOk s) (hs : SteadyAttrGet s side owner names) :
    ∃ blocks, getAttributeProperty side s owner names = some (blocks.flatMap AttrBlock.data) ∧
      List.Forall₂ (AnsweredAttr ((book s).attrs side (lowerName owner))) names blocks := by
  obtain ⟨hlen,hfew,hg⟩ := hs
  obtain ⟨hok,hbook⟩ := attrsOf_ok h side owner
  have hsized : ∀ b ∈ names.map (answerBlock (attrsOf s side owner)), ∀ d ∈ b.props,
      d.valueString.length < 2 ^ 31 := by
    intro b hb d hd
    obtain ⟨name,-,rfl⟩ := List.mem_map.mp hb
    obtain ⟨p,hp,rfl⟩ := List.mem_map.mp hd
    exact (propsOk_propsOf hok name).sized p hp
  have hcount : ∀ b ∈ names.map (answerBlock (attrsOf s side owner)), b.props.length < maxProps side := by
    intro b hb
    obtain ⟨name,hn,rfl⟩ := List.mem_map.mp hb
    unfold answerBlock
    rw [List.length_map]
    exact hfew name hn
  refine ⟨names.map (answerBlock (attrsOf s side owner)),?_,?_⟩
  · have hread := fun (readCount : String → Nat)
        (hc : ∀ b ∈ names.map (answerBlock (attrsOf s side owner)),
          readCount (numText b.props.length) = b.props.length) => readAttrs_blocks hc hsized hg
    rw [List.length_map] at hread
    cases side with
    | device =>
      simp only [getAttributeProperty,namesRequest_eq,attrReply_eq h,decodeDeviceAttributeProperty,
        decodeAttributeProperty,readUInt_numText hlen]
      exact hread readUShort (fun b hb => readUShort_numText (hcount b hb))
    | cls =>
      simp only [getAttributeProperty,namesRequest_eq,attrReply_eq h,decodeClassAttributeProperty,
        decodeAttributeProperty,readUInt_numText hlen]
      exact hread readShort (fun b hb => readShort_numText (hcount b hb))
  · rw [hbook,List.forall₂_map_right_iff,List.forall₂_same]
    exact fun name _ => answered_block hok name

end Gets

section Database
variable {s : TServer}

def motorDevice : TDevice where
  name := "a/b/c"
  properties := [⟨"Axis",["1"]⟩]
  attributeProperties := [⟨"Speed",[⟨"min_value",["-5"]⟩,⟨"max_value",["5"]⟩]⟩]

/-- A server with one class and one device. -/
def motorStore : TServer := ⟨"Motor","test",[⟨⟨"Motor",[],[]⟩,["a/b/c"]⟩],[motorDevice],[]⟩

theorem motorStore_ok : StoreOk motorStore := by
  have hdevice : HolderOk motorDevice :=
    ⟨by decide,⟨by decide,by decide,by decide⟩,⟨by decide,by decide,fun t ht => (by
      simp only [motorDevice,List.mem_singleton] at ht
      subst ht
      exact ⟨by decide,by decide,by decide⟩)⟩⟩
  have hclass : HolderOk ⟨"Motor",[],[]⟩ :=
    ⟨by decide,propsOk_nil,⟨List.nodup_nil,fun t ht => (by cases ht),fun t ht => (by cases ht)⟩⟩
  constructor
  · intro side
    cases side <;> decide
  · intro side d hd
    cases side with
    | device =>
      rw [List.mem_singleton.mp hd]
      exact hdevice
    | cls =>
      rw [List.mem_singleton.mp hd]
      exact hclass

def motorRequests : List Request :=
  [.putProperty .device "A/B/C" [⟨"axis",["2","3"]⟩,⟨"Home",["yes"]⟩],.putProperty .cls "motor" [⟨"Doc",[]⟩],
    .putAttributeProperty .device "a/b/c" [⟨"Position",[⟨"unit",["mm"]⟩]⟩,
      ⟨"speed",[⟨"min_value",["-1"]⟩,⟨"max_value",["1"]⟩]⟩],
    .deleteProperty .device "a/b/c" ["home","other"]]

/-- Two stored properties in their stored order, then another attribute. -/
def speedRequest : Request :=
  .putAttributeProperty .device "a/b/c" [⟨"Speed",[⟨"min_value",["-1"]⟩,⟨"max_value",["1"]⟩]⟩,
    ⟨"Position",[⟨"min_value",["0"]⟩]⟩]

end Database
end CppTango.Db
