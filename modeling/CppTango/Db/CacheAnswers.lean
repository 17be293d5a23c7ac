import CppTango.Db.CacheSpec

namespace CppTango.Db

open CppTango.Lib CppTango.Device

section Strings
variable {c : DbServerCache} {list : List String} (hc : c.dataList = list)
include hc

theorem str_of_get {i : Nat} {x : String} (h : list[i]? = some x) : c.str i = x := by
  unfold DbServerCache.str
  rw [hc,List.getD_eq_getElem?_getD,h]
  rfl

theorem strs_of_placed {i : Nat} {xs : List String} (h : Placed list i xs) : c.strs i xs.length = xs := by
  unfold DbServerCache.strs
  rw [hc]
  exact h.take

/-- The strings of one wanted property. -/
theorem objProp_eq {obj : PropEltIdx} {b : AttrBlock} (h : obj.Holds list b) (skip : Bool) (name : String) :
    c.objProp obj skip name =
      match b.props.find? (fun d => strcasecmp name d.name) with
      | some d => DbDatum.strings ⟨name,d.valueString⟩
      | none => if skip then [name,"0"," "] else [name,"0"] := by
  have hrel := find_related h.props (p := fun x => strcasecmp name (c.str x.1))
    (q := fun d => strcasecmp name d.name) (fun x d hx => by rw [str_of_get hc hx.1.head])
  unfold DbServerCache.objProp
  rcases hrel with ⟨hi,hd⟩ | ⟨⟨i,n⟩,d,hi,hd,hplaced,hn⟩
  · rw [hi,hd]
  · simp only at hplaced hn
    rw [hi,hd]
    simp only
    rw [hn,str_of_get hc hplaced.tail.head,strs_of_placed hc hplaced.tail.tail]
    rfl

/-- The number of strings to copy for the properties of an attribute. -/
theorem propSpan_placed (hlen : list.length < 2 ^ 31) (ds : DbData) (i : Nat)
    (h : Placed list i (ds.flatMap DbDatum.strings)) :
    c.propSpan ds.length i = (ds.flatMap DbDatum.strings).length := by
  induction ds generalizing i with
  | nil => rfl
  | cons d ds ih =>
    rw [List.flatMap_cons] at h
    obtain ⟨s,hs,hcount⟩ := atoiNat_of_placed hlen h.left le_rfl
    have hnext := h.right
    rw [length_strings,← Nat.add_assoc] at hnext
    rw [List.length_cons,DbServerCache.propSpan,str_of_get hc hs,hcount,ih _ hnext,List.flatMap_cons,
      List.length_append,length_strings]
    omega

/-- An attribute is copied from the array as it stands there. -/
theorem attStrings_eq (hlen : list.length < 2 ^ 31) {obj : AttPropEltIdx} {atts : List AttrBlock}
    (h : obj.Holds list atts) (name : String) :
    c.attStrings obj name = (attAnswer atts name).strings := by
  have hrel := find_related h (p := fun i => strcasecmp name (c.str i))
    (q := fun b => strcasecmp name b.name) (fun i b hi => by rw [str_of_get hc hi.head])
  unfold DbServerCache.attStrings attAnswer
  rcases hrel with ⟨hi,hb⟩ | ⟨i,b,hi,hb,hplaced⟩
  · rw [hi,hb]
    exact congrArg (fun s => [name,s]) numText_zero.symm
  · obtain ⟨s,hs,hcount⟩ := atoiNat_of_placed hlen hplaced (length_le_props b.props)
    have hspan := propSpan_placed hc hlen b.props (i + 2) hplaced.tail.tail
    rw [hi,hb]
    simp only [Option.getD_some]
    rw [str_of_get hc hs,hcount,hspan,Nat.add_comm 2]
    exact strs_of_placed hc hplaced

end Strings

section Readings
variable {list : List String}

theorem sized_of_placed {i : Nat} {d : DbDatum} (h : Placed list i d.strings) :
    d.valueString.length ≤ list.length := by
  have := h.room
  rw [length_strings] at this
  omega

theorem sized_props {idx : List (Nat × Nat)} {ds : DbData} (h : List.Forall₂ (PropAt list) idx ds) :
    ∀ d ∈ ds, d.valueString.length ≤ list.length := by
  induction h with
  | nil => exact fun _ hd => absurd hd List.not_mem_nil
  | cons hx _ ih => exact List.forall_mem_cons.mpr ⟨sized_of_placed hx.1,ih⟩

theorem sized_atts {idx : List Nat} {atts : List AttrBlock}
    (h : List.Forall₂ (fun i (b : AttrBlock) => Placed list i b.strings) idx atts) :
    ∀ b ∈ atts, ∀ d ∈ b.props, d.valueString.length ≤ list.length := by
  induction h with
  | nil => exact fun _ hb => absurd hb List.not_mem_nil
  | @cons i b _ _ hi _ ih =>
    refine List.forall_mem_cons.mpr ⟨?_,ih⟩
    intro d hd
    obtain ⟨pre,post,hp⟩ := List.append_of_mem hd
    have hprops : Placed list (i + 1 + 1) (b.props.flatMap DbDatum.strings) := hi.tail.tail
    rw [hp,List.flatMap_append,List.flatMap_cons] at hprops
    exact sized_of_placed hprops.right.left

variable {c : DbServerCache} (hc : c.dataList = list) (hlen : list.length < 2 ^ 31)
include hc hlen

/-- The replies for devices and objects have a dummy value in place of an empty list, those for
classes have none, as their readers expect. -/
theorem readProps_objProp {obj : PropEltIdx} {b : AttrBlock} (h : obj.Holds list b)
    (hv : ∀ d ∈ b.props, d.valueString ≠ []) (skip : Bool) (names : List String) :
    readProps skip names.length (names.flatMap (c.objProp obj skip)) =
      some (names.map (propAnswer b.props),[]) := by
  induction names with
  | nil => rfl
  | cons name names ih =>
    rw [List.length_cons,List.flatMap_cons,objProp_eq hc h,List.map_cons]
    cases hf : b.props.find? (fun d => strcasecmp name d.name) with
    | none =>
      have ha : propAnswer b.props name = ⟨name,[]⟩ := by
        unfold propAnswer
        rw [hf]
        rfl
      rw [ha]
      cases skip with
      | true =>
        have := readProps_dummy name " " (n := names.length) (c := names.flatMap (c.objProp obj true))
        rw [ih] at this
        exact this
      | false =>
        have hz : readInt "0" = 0 := by decide
        simp only [Bool.false_eq_true,↓reduceIte,List.cons_append,List.nil_append]
        rw [readProps,hz]
        simp [readValues,takeStrings,ih]
    | some d =>
      have hd := List.mem_of_find?_eq_some hf
      have ha : propAnswer b.props name = ⟨name,d.valueString⟩ := by
        unfold propAnswer
        rw [hf]
        rfl
      have hsized := (sized_props h.props d hd).trans_lt hlen
      simp only
      rw [ha,readProps_cons ⟨name,d.valueString⟩ hsized (fun _ => hv d hd),ih]
      rfl

theorem decode_getObjProp {obj : PropEltIdx} {b : AttrBlock} (h : obj.Holds list b)
    (hv : ∀ d ∈ b.props, d.valueString ≠ []) (skip : Bool) (owner : String) {names : List String}
    (hn : names.length < 2 ^ 31) :
    decodeProperty skip (c.getObjProp owner obj skip names) =
      some (names.map (propAnswer b.props)) := by
  unfold DbServerCache.getObjProp decodeProperty
  simp only
  rw [readUInt_numText (by omega),readProps_objProp hc hlen h hv]
  rfl

/-- Decoding the reply for attributes or pipes. -/
theorem decode_attReply {obj : AttPropEltIdx} {atts : List AttrBlock} (h : obj.Holds list atts)
    (hv : ∀ b ∈ atts, ∀ d ∈ b.props, d.valueString ≠ []) {readCount : String → Nat}
    (hcount : ∀ b ∈ atts, readCount (numText b.props.length) = b.props.length)
    (hzero : readCount (numText 0) = 0) (owner : String) {names : List String}
    (hn : names.length < 2 ^ 31) :
    decodeAttributeProperty readCount (c.attReply owner obj names) = some (attAnswers atts names) := by
  have hanswer : ∀ name, attAnswer atts name ∈ atts ∨ (attAnswer atts name).props = [] := by
    intro name
    unfold attAnswer
    cases hf : atts.find? (fun b => strcasecmp name b.name) with
    | none => exact Or.inr rfl
    | some b => exact Or.inl (List.mem_of_find?_eq_some hf)
  have hall : ∀ P : AttrBlock → Prop, (∀ b ∈ atts, P b) → (∀ b : AttrBlock, b.props = [] → P b) →
      ∀ b ∈ names.map (attAnswer atts), P b := by
    intro P hin hempty b hb
    obtain ⟨name,-,rfl⟩ := List.mem_map.mp hb
    rcases hanswer name with hm | hm
    · exact hin _ hm
    · exact hempty _ hm
  unfold DbServerCache.attReply decodeAttributeProperty
  simp only
  rw [readUInt_numText (by omega),List.flatMap_congr (fun name _ => attStrings_eq hc hlen h name)]
  have hread : readAttrs readCount (names.map (attAnswer atts)).length
      ((names.map (attAnswer atts)).flatMap AttrBlock.strings) =
        some ((names.map (attAnswer atts)).flatMap AttrBlock.data) := readAttrs_blocks
    (hall _ hcount (fun b hb => by rw [hb]; exact hzero))
    (hall _ (fun b hb d hd => (sized_atts h b hb d hd).trans_lt hlen) (fun b hb d hd => by simp [hb] at hd))
    (gapless_of_valued (hall _ hv (fun b hb d hd => by simp [hb] at hd)))
  rw [List.length_map,List.flatMap_map,List.flatMap_map] at hread
  exact hread

end Readings

section Finding
variable {c : DbServerCache} {conf : Config} (h : c.Holds conf)
include h

theorem findClass_holds (name : String) :
    (c.findClass name = none ∧ conf.findClass name = none) ∨
      ∃ x cl, c.findClass name = some x ∧ conf.findClass name = some cl ∧
        x.Holds conf.strings conf.hasPipes cl := by
  apply find_related h.classes
  intro x cl hx
  rw [str_of_get h.list hx.props.first]

theorem devsOf_holds {x : ClassEltIdx} {cl : ClassConf} (hx : x.Holds conf.strings conf.hasPipes cl) :
    List.Forall₂ (fun (y : String × DevEltIdx) (d : DevConf) =>
      y.1 = d.name ∧ y.2.Holds conf.strings conf.hasPipes d) (c.devsOf x) cl.devs := by
  have hnames := strs_of_placed h.list hx.devList
  rw [List.length_map] at hnames
  unfold DbServerCache.devsOf
  rw [hx.devNb,hnames]
  exact zip_related hx.devs

theorem findDevAtt_holds (name : String) :
    (c.findDevAtt name = none ∧ conf.findDev name = none) ∨
      ∃ x d, c.findDevAtt name = some x ∧ conf.findDev name = some d ∧
        x.Holds conf.strings conf.hasPipes d := by
  have hall : List.Forall₂ (fun (y : String × DevEltIdx) (d : DevConf) =>
      y.1 = d.name ∧ y.2.Holds conf.strings conf.hasPipes d)
      (c.classesIdx.flatMap c.devsOf) (conf.classes.flatMap ClassConf.devs) :=
    List.rel_flatMap h.classes (fun _ _ hx => devsOf_holds h hx)
  have hrel := find_related hall (p := fun y => strcasecmp y.1 name)
    (q := fun d => strcasecmp d.name name) (fun y d hy => by rw [hy.1])
  unfold DbServerCache.findDevAtt Config.findDev
  rcases hrel with ⟨h1,h2⟩ | ⟨y,d,h1,h2,-,hy⟩
  · rw [h1,h2]
    exact Or.inl ⟨rfl,rfl⟩
  · rw [h1,h2]
    exact Or.inr ⟨y.2,d,rfl,rfl,hy⟩

end Finding

section Answers

/-- What a client makes of a reply. -/
def decoded (decode : List String → Option DbData) : Reply → Option Answer
  | none => none
  | some (.error e) => some (.error e)
  | some (.ok reply) => (decode reply).map Except.ok

/-- The cache answers, decoded, as the database does. -/
structure Answers (c : DbServerCache) (conf : Config) (owner : String) (names : List String) : Prop where
  classProperty : decoded (decodeProperty false) (c.getClassProperty owner names) =
    some (conf.classProperty owner names)
  devProperty : decoded (decodeProperty true) (c.getDevProperty owner names) =
    some (conf.devProperty owner names)
  objProperty : decoded (decodeProperty true) (c.getObjProperty owner names) =
    some (conf.objProperty owner names)
  devList : c.getDevList owner = conf.devList owner
  classAttProperty : decoded decodeClassAttributeProperty (c.getClassAttProperty owner names) =
    some (conf.classAttProperty owner names)
  devAttProperty : decoded decodeDeviceAttributeProperty (c.getDevAttProperty owner names) =
    some (conf.devAttProperty owner names)
  classPipeProperty : decoded decodeClassAttributeProperty (c.getClassPipeProperty owner names) =
    some (conf.classPipeProperty owner names)
  devPipeProperty : decoded decodeDeviceAttributeProperty (c.getDevPipeProperty owner names) =
    some (conf.devPipeProperty owner names)

/-- Every property has a value. -/
structure Config.Valued (conf : Config) : Prop where
  dServer : ∀ d ∈ conf.dServer.props, d.valueString ≠ []
  default : ∀ d ∈ conf.default.props, d.valueString ≠ []
  admDev : ∀ d ∈ conf.admDev.props, d.valueString ≠ []
  ctrlServ : ∀ d ∈ conf.ctrlServ.props, d.valueString ≠ []
  classes : ∀ cl ∈ conf.classes, (∀ d ∈ cl.props, d.valueString ≠ []) ∧
    ∀ b ∈ cl.atts ++ cl.pipes, ∀ d ∈ b.props, d.valueString ≠ []
  devs : ∀ x ∈ conf.classes.flatMap ClassConf.devs, (∀ d ∈ x.props, d.valueString ≠ []) ∧
    ∀ b ∈ x.atts ++ x.pipes, ∀ d ∈ b.props, d.valueString ≠ []

/-- The array and the numbers in it fit the integers of their readers. -/
structure Config.Fits (conf : Config) : Prop where
  strings : conf.strings.length < 2 ^ 31
  classes : ∀ cl ∈ conf.classes, ∀ b ∈ cl.atts ++ cl.pipes, b.props.length < 2 ^ 15
  devs : ∀ x ∈ conf.classes.flatMap ClassConf.devs, ∀ b ∈ x.atts ++ x.pipes, b.props.length < 2 ^ 16

variable {c : DbServerCache} {conf : Config} {names : List String}
variable (h : c.Holds conf) (hv : conf.Valued) (hf : conf.Fits) (hn : names.length < 2 ^ 31)
include h hv hf hn

theorem getClassProperty_answers (cl : String) :
    decoded (decodeProperty false) (c.getClassProperty cl names) = some (conf.classProperty cl names) := by
  unfold DbServerCache.getClassProperty Config.classProperty
  split
  · obtain ⟨obj,ho,hh⟩ := h.dServer
    rw [ho,Option.map_some,decoded,decode_getObjProp h.list hf.strings hh hv.dServer false _ hn]
    rfl
  · split
    · obtain ⟨obj,ho,hh⟩ := h.default
      rw [ho,Option.map_some,decoded,decode_getObjProp h.list hf.strings hh hv.default false _ hn]
      rfl
    · rcases findClass_holds h cl with ⟨h1,h2⟩ | ⟨x,y,h1,h2,hx⟩
      · rw [h1,h2]
        rfl
      · have hy := (hv.classes y (List.mem_of_find?_eq_some h2)).1
        rw [h1,h2]
        simp only
        rw [decoded,decode_getObjProp h.list hf.strings hx.props hy false _ hn]
        rfl

theorem getDevProperty_answers (dev : String) :
    decoded (decodeProperty true) (c.getDevProperty dev names) = some (conf.devProperty dev names) := by
  unfold DbServerCache.getDevProperty Config.devProperty
  split
  · obtain ⟨obj,ho,hh⟩ := h.admDev
    rw [ho]
    simp only
    rw [decoded,decode_getObjProp h.list hf.strings hh hv.admDev true _ hn]
    rfl
  · rcases findDevAtt_holds h dev with ⟨h1,h2⟩ | ⟨x,y,h1,h2,hx⟩
    · rw [h1,h2]
      rfl
    · have hy := (hv.devs y (List.mem_of_find?_eq_some h2)).1
      rw [h1,h2]
      simp only
      rw [decoded,decode_getObjProp h.list hf.strings hx.props hy true _ hn]
      rfl

theorem getObjProperty_answers (obj : String) :
    decoded (decodeProperty true) (c.getObjProperty obj names) = some (conf.objProperty obj names) := by
  obtain ⟨x,hx,hh⟩ := h.ctrlServ
  unfold DbServerCache.getObjProperty Config.objProperty
  rw [hx]
  simp only
  rw [str_of_get h.list hh.first]
  split
  · rw [decoded,decode_getObjProp h.list hf.strings hh hv.ctrlServ true _ hn]
    rfl
  · rfl

/-- The attributes or the pipes of a class. -/
theorem decode_class {cl : ClassConf} (hcl : cl ∈ conf.classes) {obj : AttPropEltIdx}
    {atts : List AttrBlock} (hsub : atts ⊆ cl.atts ++ cl.pipes) (ho : obj.Holds conf.strings atts)
    (owner : String) :
    decodeClassAttributeProperty (c.attReply owner obj names) = some (attAnswers atts names) :=
  decode_attReply h.list hf.strings ho (fun b hb => (hv.classes cl hcl).2 b (hsub hb))
    (fun b hb => readShort_numText (hf.classes cl hcl b (hsub hb))) (readShort_numText (by decide)) owner hn

/-- The attributes or the pipes of a device. -/
theorem decode_dev {d : DevConf} (hd : d ∈ conf.classes.flatMap ClassConf.devs) {obj : AttPropEltIdx}
    {atts : List AttrBlock} (hsub : atts ⊆ d.atts ++ d.pipes) (ho : obj.Holds conf.strings atts)
    (owner : String) :
    decodeDeviceAttributeProperty (c.attReply owner obj names) = some (attAnswers atts names) :=
  decode_attReply h.list hf.strings ho (fun b hb => (hv.devs d hd).2 b (hsub hb))
    (fun b hb => readUShort_numText (hf.devs d hd b (hsub hb))) (readUShort_numText (by decide)) owner hn

theorem getClassAttProperty_answers (cl : String) :
    decoded decodeClassAttributeProperty (c.getClassAttProperty cl names) =
      some (conf.classAttProperty cl names) := by
  unfold DbServerCache.getClassAttProperty Config.classAttProperty
  rcases findClass_holds h cl with ⟨h1,h2⟩ | ⟨x,y,h1,h2,hx⟩
  · rw [h1,h2]
    rfl
  · have hy := List.mem_of_find?_eq_some h2
    rw [h1,h2]
    simp only
    rw [decoded,decode_class h hv hf hn hy (List.subset_append_left _ _) hx.atts]
    rfl

theorem getDevAttProperty_answers (dev : String) :
    decoded decodeDeviceAttributeProperty (c.getDevAttProperty dev names) =
      some (conf.devAttProperty dev names) := by
  unfold DbServerCache.getDevAttProperty Config.devAttProperty
  rcases findDevAtt_holds h dev with ⟨h1,h2⟩ | ⟨x,y,h1,h2,hx⟩
  · rw [h1,h2]
    simp only
    split
    · rfl
    · rfl
  · have hy := List.mem_of_find?_eq_some h2
    rw [h1,h2]
    simp only
    rw [decoded,decode_dev h hv hf hn hy (List.subset_append_left _ _) hx.atts]
    rfl

theorem getClassPipeProperty_answers (cl : String) :
    decoded decodeClassAttributeProperty (c.getClassPipeProperty cl names) =
      some (conf.classPipeProperty cl names) := by
  have hrel := h.release
  unfold DbServerCache.getClassPipeProperty Config.classPipeProperty
  by_cases hp : conf.hasPipes = true
  · have hnew := hrel.mpr hp
    rw [if_neg (by omega),if_pos hp]
    rcases findClass_holds h cl with ⟨h1,h2⟩ | ⟨x,y,h1,h2,hx⟩
    · rw [h1,h2]
      rfl
    · have hy := List.mem_of_find?_eq_some h2
      have hpipes := hx.pipes
      unfold PipesHold at hpipes
      rw [if_pos hp] at hpipes
      obtain ⟨obj,ho,hh⟩ := hpipes
      rw [h1,h2]
      simp only
      rw [ho,Option.map_some,decoded,decode_class h hv hf hn hy (List.subset_append_right _ _) hh]
      rfl
  · have hold : ¬ 109 ≤ c.procRelease := fun hc => hp (hrel.mp hc)
    rw [if_pos (by omega),if_neg hp]
    rfl

theorem getDevPipeProperty_answers (dev : String) :
    decoded decodeDeviceAttributeProperty (c.getDevPipeProperty dev names) =
      some (conf.devPipeProperty dev names) := by
  have hrel := h.release
  unfold DbServerCache.getDevPipeProperty Config.devPipeProperty
  by_cases hp : conf.hasPipes = true
  · have hnew := hrel.mpr hp
    rw [if_neg (by omega),if_pos hp]
    rcases findDevAtt_holds h dev with ⟨h1,h2⟩ | ⟨x,y,h1,h2,hx⟩
    · rw [h1,h2]
      simp only
      split
      · rfl
      · rfl
    · have hy := List.mem_of_find?_eq_some h2
      have hpipes := hx.pipes
      unfold PipesHold at hpipes
      rw [if_pos hp] at hpipes
      obtain ⟨obj,ho,hh⟩ := hpipes
      rw [h1,h2]
      simp only
      rw [ho,Option.map_some,decoded,decode_dev h hv hf hn hy (List.subset_append_right _ _) hh]
      rfl
  · have hold : ¬ 109 ≤ c.procRelease := fun hc => hp (hrel.mp hc)
    rw [if_pos (by omega),if_neg hp]
    rfl

end Answers

section Cache
variable {conf : Config}

theorem getDevList_answers {c : DbServerCache} (h : c.Holds conf) (cl : String) :
    c.getDevList cl = conf.devList cl := by
  unfold DbServerCache.getDevList Config.devList
  rcases findClass_holds h cl with ⟨h1,h2⟩ | ⟨x,y,h1,h2,hx⟩
  · rw [h1,h2]
  · have hnames := strs_of_placed h.list hx.devList
    rw [List.length_map] at hnames
    rw [h1,h2]
    simp only
    rw [hx.devNb,hnames]

/-- The cache of a starting server answers like the database, when its first string is not taken for
another release. -/
theorem cache_answers_like_database (hv : conf.Valued) (hf : conf.Fits) (hr : conf.Released) :
    ∃ c, dbServerCache conf.strings = some c ∧
      ∀ owner names, names.length < 2 ^ 31 → Answers c conf owner names := by
  obtain ⟨c,hc,h⟩ := dbServerCache_holds hf.strings hr
  refine ⟨c,hc,?_⟩
  intro owner names hn
  exact {
    classProperty := getClassProperty_answers h hv hf hn owner
    devProperty := getDevProperty_answers h hv hf hn owner
    objProperty := getObjProperty_answers h hv hf hn owner
    devList := getDevList_answers h owner
    classAttProperty := getClassAttProperty_answers h hv hf hn owner
    devAttProperty := getDevAttProperty_answers h hv hf hn owner
    classPipeProperty := getClassPipeProperty_answers h hv hf hn owner
    devPipeProperty := getDevPipeProperty_answers h hv hf hn owner
  }

def motorClass : ClassConf where
  name := "Motor"
  props := [⟨"Description",["Axis"]⟩]
  atts := [⟨"Speed",[⟨"unit",["mm/s"]⟩]⟩]
  pipes := []
  devs := [⟨"sys/motor/1",[⟨"Port",["5000","5001"]⟩],
    [⟨"Speed",[⟨"min_value",["0"]⟩,⟨"max_value",["10"]⟩]⟩],[]⟩]

/-- A server with one class and one device, and a database without a release. -/
def motorConfig (admName : String) : Config where
  release := none
  adm := ⟨admName,["IOR:01","5","Motor","host","1","1234","0"],rfl⟩
  notifdEvent := .notFound "notifd/factory/host"
  admEvent := .notFound admName
  dServer := ⟨"DServer",[]⟩
  default := ⟨"Default",[]⟩
  admDev := ⟨admName,[⟨"polling_threads_pool_size",["3"]⟩]⟩
  server := "Motor"
  classes := [motorClass]
  ctrlServ := ⟨"CtrlSystem",[]⟩
  tac := none

theorem motorConfig_valued (admName : String) : (motorConfig admName).Valued where
  dServer := by simp [motorConfig]
  default := by simp [motorConfig]
  admDev := by simp [motorConfig]
  ctrlServ := by simp [motorConfig]
  classes := by simp [motorConfig,motorClass]
  devs := by simp [motorConfig,motorClass]

theorem motorConfig_fits (admName : String) : (motorConfig admName).Fits where
  strings := show _ < 2 ^ 31 from (by decide : 56 < 2 ^ 31)
  classes := by simp [motorConfig,motorClass]
  devs := by simp [motorConfig,motorClass]

theorem cache_answers_motor : (motorConfig "dserver/motor/v1.2").Valued ∧
    ∃ c, dbServerCache (motorConfig "dserver/motor/v1.2").strings = some c ∧
      ∀ owner names, names.length < 2 ^ 31 → Answers c (motorConfig "dserver/motor/v1.2") owner names :=
  ⟨motorConfig_valued _,cache_answers_like_database (motorConfig_valued _) (motorConfig_fits _)
    (Or.inl (by decide))⟩

/-- An admin device name is taken for release number 2 of the stored procedure: every block is looked
for behind its place and the class has no devices. -/
theorem prerelease_hides_devices : (motorConfig "dserver/prerelease/v1.2").Valued ∧
    (motorConfig "dserver/prerelease/v1.2").Fits ∧
    ¬ ∃ c, dbServerCache (motorConfig "dserver/prerelease/v1.2").strings = some c ∧
      ∀ owner names, names.length < 2 ^ 31 →
        Answers c (motorConfig "dserver/prerelease/v1.2") owner names := by
  refine ⟨motorConfig_valued _,motorConfig_fits _,?_⟩
  rintro ⟨c,hc,h⟩
  have hlist := (h "Motor" [] (by decide)).devList
  have hnone : (dbServerCache (motorConfig "dserver/prerelease/v1.2").strings).map
      (fun c => c.getDevList "Motor") = some [] := by decide +kernel
  rw [hc,Option.map_some,Option.some.injEq,hlist] at hnone
  exact absurd hnone (by decide)

end Cache

end CppTango.Db
