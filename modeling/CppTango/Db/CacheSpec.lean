import CppTango.Db.CacheBlocks

namespace CppTango.Db

open CppTango.Lib CppTango.Device

section Configuration

/-- What is needed to import the admin device. -/
structure AdmImport where
  name : String
  info : List String
  seven : info.length = 7

/-- An event channel in the array. -/
inductive EventConf where
  | notFound (name : String)
  | found (name ior : String) (info : List String) (isFound : ior ≠ "Not Found") (four : info.length = 4)

def EventConf.strings : EventConf → List String
  | .notFound name => [name,"Not Found"]
  | .found name ior info _ _ => name :: ior :: info

/-- All that the database knows of a device server when it starts. -/
structure Config where
  release : Option (Nat × Nat)
  adm : AdmImport
  notifdEvent : EventConf
  admEvent : EventConf
  dServer : AttrBlock
  default : AttrBlock
  admDev : AttrBlock
  server : String
  classes : List ClassConf
  ctrlServ : AttrBlock
  tac : Option (List String)

/-- Release 1.9 or later. -/
def Config.hasPipes (conf : Config) : Bool :=
  match conf.release with
  | none => false
  | some (major,minor) => 1 < major || (major = 1 && 9 ≤ minor)

def releaseText (major minor : Nat) : String := "release " ++ numText major ++ "." ++ numText minor

def Config.releaseStrings (conf : Config) : List String :=
  match conf.release with
  | none => []
  | some (major,minor) => [releaseText major minor]

/-- The number of the embedded classes. -/
def Config.classCount (conf : Config) : List String := [conf.server,numText conf.classes.length]

/-- The array, block after block. -/
def Config.strings (conf : Config) : List String :=
  conf.releaseStrings ++ ((conf.adm.name :: conf.adm.info) ++ (conf.notifdEvent.strings ++
    (conf.admEvent.strings ++ (conf.dServer.strings ++ (conf.default.strings ++ (conf.admDev.strings ++
      (conf.classCount ++ (conf.classes.flatMap (ClassConf.strings conf.hasPipes) ++
        (conf.ctrlServ.strings ++ conf.tac.getD [])))))))))

/-- One property asked for. -/
def propAnswer (props : DbData) (name : String) : DbDatum :=
  ⟨name,((props.find? (fun d => strcasecmp name d.name)).map DbDatum.valueString).getD []⟩

/-- One attribute, or pipe, asked for. -/
def attAnswer (atts : List AttrBlock) (name : String) : AttrBlock :=
  (atts.find? (fun b => strcasecmp name b.name)).getD ⟨name,[]⟩

def attAnswers (atts : List AttrBlock) (names : List String) : DbData :=
  names.flatMap (fun name => (attAnswer atts name).data)

def Config.findClass (conf : Config) (name : String) : Option ClassConf :=
  conf.classes.find? (fun cl => strcasecmp cl.name name)

def Config.findDev (conf : Config) (name : String) : Option DevConf :=
  (conf.classes.flatMap ClassConf.devs).find? (fun d => strcasecmp d.name name)

/-- What the database answers, or that the cache does not know the owner. -/
abbrev Answer := Except DevErrorList DbData

def Config.classProperty (conf : Config) (cl : String) (names : List String) : Answer :=
  if strcasecmp cl "DServer" then .ok (names.map (propAnswer conf.dServer.props))
  else if strcasecmp cl "Default" then .ok (names.map (propAnswer conf.default.props))
  else
    match conf.findClass cl with
    | some x => .ok (names.map (propAnswer x.props))
    | none => .error (classNotFound cl "DbServerCache::get_class_property")

def Config.devProperty (conf : Config) (dev : String) (names : List String) : Answer :=
  if isAdminName dev then .ok (names.map (propAnswer conf.admDev.props))
  else
    match conf.findDev dev with
    | some x => .ok (names.map (propAnswer x.props))
    | none => .error (deviceNotFound "Device " dev "DbServerCache::get_dev_property")

def Config.objProperty (conf : Config) (obj : String) (names : List String) : Answer :=
  if strcasecmp conf.ctrlServ.name obj then .ok (names.map (propAnswer conf.ctrlServ.props))
  else .error (deviceNotFound "Object " obj "DbServerCache::get_obj_property")

def Config.devList (conf : Config) (cl : String) : List String :=
  match conf.findClass cl with
  | some x => x.devs.map DevConf.name
  | none => []

def Config.classAttProperty (conf : Config) (cl : String) (names : List String) : Answer :=
  match conf.findClass cl with
  | some x => .ok (attAnswers x.atts names)
  | none => .error (classNotFound cl "DbServerCache::get_class_att_property")

/-- The admin device has no attributes. -/
def Config.devAttProperty (conf : Config) (dev : String) (names : List String) : Answer :=
  match conf.findDev dev with
  | some x => .ok (attAnswers x.atts names)
  | none =>
    if isAdminName dev then .ok []
    else .error (deviceNotFound "Device " dev "DbServerCache::get_dev_att_property")

def Config.classPipeProperty (conf : Config) (cl : String) (names : List String) : Answer :=
  if conf.hasPipes then
    match conf.findClass cl with
    | some x => .ok (attAnswers x.pipes names)
    | none => .error (classNotFound cl "DbServerCache::get_class_pipe_property")
  else .error (tooOldStoredProc "DbServerCache::get_class_pipe_property")

def Config.devPipeProperty (conf : Config) (dev : String) (names : List String) : Answer :=
  if conf.hasPipes then
    match conf.findDev dev with
    | some x => .ok (attAnswers x.pipes names)
    | none =>
      if isAdminName dev then .ok []
      else .error (deviceNotFound "Device " dev "DbServerCache::get_dev_pipe_property")
  else .error (tooOldStoredProc "DbServerCache::get_dev_pipe_property")

/-- A device name that is not taken for a release number. -/
def NoRelease (name : String) : Prop :=
  ¬ "release".toList <:+: name.toList ∨ (8 ≤ name.toList.length ∧
    ∀ pos, (name.toList.drop 8).idxOf? '.' = some pos →
      atoi (String.ofList ((name.toList.drop 8).take pos)) * 100 +
        atoi (String.ofList ((name.toList.drop 8).drop (pos + 1))) = 0)

/-- The first string of the array says what release there is. -/
def Config.Released (conf : Config) : Prop :=
  match conf.release with
  | none => NoRelease conf.adm.name
  | some (major,minor) => (0 < major ∨ 0 < minor ∧ minor < 109) ∧ major * 100 + minor < 2 ^ 31

end Configuration

section Release
variable {conf : Config}

theorem releaseNumber_noRelease {name : String} (h : NoRelease name) : releaseNumber name = some 0 := by
  unfold releaseNumber
  rcases h with h | ⟨hl,h⟩
  · rw [if_neg (fun hf => h (find_isSome.mp hf))]
  · rw [if_neg (Nat.not_lt.mpr hl)]
    split
    · cases hp : (name.toList.drop 8).idxOf? '.' with
      | none => simp [hp]
      | some pos =>
        simp only [hp]
        rw [h pos hp]
    · rfl

theorem dot_not_mem_intText (n : Nat) : '.' ∉ intText n := by
  have hn : ¬ ((n : Int) < 0) := by omega
  unfold intText
  rw [if_neg hn]
  intro hm
  exact absurd (digit_of_mem hm) (by decide)

/-- A release is read back as its number. -/
theorem releaseNumber_releaseText (major minor : Nat) (h : major * 100 + minor < 2 ^ 31) :
    releaseNumber (releaseText major minor) = some ((major * 100 + minor : Nat) : Int) := by
  have ht : (releaseText major minor).toList =
      "release ".toList ++ (intText major ++ '.' :: intText minor) := by
    unfold releaseText
    simp only [String.toList_append,toList_numText,List.append_assoc]
    rfl
  have hinf : "release".toList <:+: (releaseText major minor).toList := by
    rw [ht]
    exact ⟨[],' ' :: (intText major ++ '.' :: intText minor),rfl⟩
  have hlen : ¬ (releaseText major minor).toList.length < 8 := by
    rw [ht,List.length_append]
    exact Nat.not_lt.mpr (Nat.le_add_right 8 _)
  have hdrop : (releaseText major minor).toList.drop 8 = intText major ++ '.' :: intText minor := by
    rw [ht]
    rfl
  unfold releaseNumber
  rw [if_pos (find_isSome.mpr hinf),if_neg hlen,hdrop]
  simp only
  rw [idxOf?_append_sep (dot_not_mem_intText major)]
  simp only
  rw [List.take_left,← List.drop_drop,List.drop_left,List.drop_one,List.tail_cons]
  have hmaj := atoi_numText (show major < 2 ^ 31 by omega)
  have hmin := atoi_numText (show minor < 2 ^ 31 by omega)
  unfold numText at hmaj hmin
  rw [hmaj,hmin]
  simp

/-- The release number that the constructor computes, and where the admin device starts. -/
theorem release_of_strings (h : conf.Released) :
    ∃ rel, (conf.strings[0]?).bind releaseNumber = some rel ∧ (109 ≤ rel ↔ conf.hasPipes = true) ∧
      (if rel = 0 then 0 else 1) = conf.releaseStrings.length := by
  unfold Config.Released at h
  unfold Config.strings Config.releaseStrings Config.hasPipes
  cases hr : conf.release with
  | none =>
    simp only [hr] at h ⊢
    refine ⟨0,?_,?_,rfl⟩
    · exact releaseNumber_noRelease h
    · simp
  | some r =>
    obtain ⟨major,minor⟩ := r
    simp only [hr] at h ⊢
    obtain ⟨hpos,hlt⟩ := h
    refine ⟨((major * 100 + minor : Nat) : Int),?_,?_,?_⟩
    · rw [List.singleton_append,List.cons_append,List.getElem?_cons_zero,Option.bind_some]
      exact releaseNumber_releaseText major minor hlt
    · simp only [Bool.or_eq_true,decide_eq_true_eq,Bool.and_eq_true]
      omega
    · rw [if_neg (by omega)]
      rfl

end Release

section Constructor
variable {conf : Config}

theorem eventIndexes_placed {list : List String} (e : EventConf) (stop : Nat)
    (h : Placed list (stop + 1) e.strings) :
    eventIndexes list stop = some ⟨stop + 1,stop + e.strings.length⟩ := by
  unfold eventIndexes
  cases e with
  | notFound name =>
    rw [h.tail.head]
    rfl
  | found name ior info hf hi =>
    rw [h.tail.head,Option.map_some,if_neg hf]
    simp [EventConf.strings,hi]

/-- A cache with the right indexes for a configuration. -/
structure DbServerCache.Holds (c : DbServerCache) (conf : Config) : Prop where
  list : c.dataList = conf.strings
  release : 109 ≤ c.procRelease ↔ conf.hasPipes = true
  dServer : ∃ obj, c.dServerClassProp = some obj ∧ obj.Holds conf.strings conf.dServer
  default : ∃ obj, c.defaultProp = some obj ∧ obj.Holds conf.strings conf.default
  admDev : ∃ obj, c.admDevProp = some obj ∧ obj.Holds conf.strings conf.admDev
  ctrlServ : ∃ obj, c.ctrlServProp = some obj ∧ obj.Holds conf.strings conf.ctrlServ
  classes : List.Forall₂ (ClassEltIdx.Holds conf.strings conf.hasPipes) c.classesIdx conf.classes

theorem length_le_classes (withPipes : Bool) (classes : List ClassConf) :
    classes.length ≤ (classes.flatMap (ClassConf.strings withPipes)).length := by
  apply length_le_flatMap
  intro cl
  exact Nat.succ_pos _

theorem length_config (conf : Config) : 8 ≤ conf.strings.length := by
  have := conf.adm.seven
  simp only [Config.strings,List.length_append,List.length_cons]
  omega

/-- The constructor finds every block of the array. -/
theorem dbServerCache_holds (hlen : conf.strings.length < 2 ^ 31) (hr : conf.Released) :
    ∃ c, dbServerCache conf.strings = some c ∧ c.Holds conf := by
  obtain ⟨rel,hrel,hpipes,hstart⟩ := release_of_strings hr
  have hlong := length_config conf
  have h0 : Placed conf.strings conf.releaseStrings.length _ := placed_append _ _
  generalize hs : conf.releaseStrings.length = start at *
  have h1 := h0.right
  rw [List.length_cons,conf.adm.seven] at h1
  have hev := eventIndexes_placed conf.notifdEvent _ h1.left
  have h2 := placed_next h1 rfl
  have hev' := eventIndexes_placed conf.admEvent _ h2.left
  have h3 := placed_next h2 rfl
  obtain ⟨objD,hd,hdHolds,hdLast⟩ := propIndexes_placed hlen _ _ h3.left
  have h4 := placed_next h3 hdLast
  obtain ⟨objF,hf,hfHolds,hfLast⟩ := propIndexes_placed hlen _ _ h4.left
  have h5 := placed_next h4 hfLast
  obtain ⟨objA,ha,haHolds,haLast⟩ := propIndexes_placed hlen _ _ h5.left
  have h6 := placed_next h5 haLast
  obtain ⟨s,hcount,hclasses⟩ : ∃ s, conf.strings[objA.lastIdx + 1 + 1]? = some s ∧
      atoiNat s = conf.classes.length := by
    apply atoiNat_of_placed hlen h6
    exact (length_le_classes conf.hasPipes conf.classes).trans (List.prefix_append _ _).length_le
  have htwo : objA.lastIdx + 2 = objA.lastIdx + conf.classCount.length := rfl
  have h7 := placed_next h6 htwo
  obtain ⟨idx,hidx,hidxHolds⟩ := classLoop_placed hlen hpipes _ _ h7.left
  have h8 := placed_next h7 rfl
  obtain ⟨objC,hc,hcHolds,hcLast⟩ := propIndexes_placed hlen _ _ h8.left
  unfold dbServerCache
  rw [hrel]
  simp only [bind,Option.bind_some,pure]
  rw [hstart,if_neg (by omega),hev,Option.bind_some,hev',Option.bind_some,hd,Option.bind_some,hf,
    Option.bind_some,ha,Option.bind_some,hcount]
  simp only [Option.map_some,Option.bind_some]
  rw [hclasses,hidx,Option.bind_some,hc,Option.bind_some]
  exact ⟨_,rfl,rfl,hpipes,⟨_,rfl,hdHolds⟩,⟨_,rfl,hfHolds⟩,⟨_,rfl,haHolds⟩,⟨_,rfl,hcHolds⟩,hidxHolds⟩

end Constructor

end CppTango.Db
