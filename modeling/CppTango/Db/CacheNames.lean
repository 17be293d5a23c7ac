import CppTango.Db.CacheAnswers
import CppTango.Lib.Patterns

namespace CppTango.Db

open CppTango.Lib CppTango.Device

section Model

/-- `rfind` of the text behind the star, compared with the room left for it. -/
def endsWith (afterStr name : List Char) : Bool :=
  match rfind afterStr name with
  | none => false
  | some posAfter => posAfter = name.length - afterStr.length

/-- The test of one name, both texts in lower case. -/
def storesName (wildcard name : List Char) : Bool :=
  match wildcard.idxOf? '*' with
  | none => name = wildcard
  | some pos =>
    let beforeStr := wildcard.take pos
    let afterStr := wildcard.drop (pos + 1)
    if pos = 0 then
      if wildcard.length = 1 then true else endsWith afterStr name
    else if pos = wildcard.length - 1 then find beforeStr name = some 0
    else find beforeStr name = some 0 && endsWith afterStr name

variable (c : DbServerCache)

/-- The names of the properties of an object. -/
def DbServerCache.propNames (obj : PropEltIdx) : List String := obj.propsIdx.map (fun (i,_) => c.str i)

def DbServerCache.getObjPropList (obj : PropEltIdx) (wildcard : String) : List String :=
  (c.propNames obj).filter (fun name => storesName (lowerName wildcard) (lowerName name))

def DbServerCache.getDevicePropertyList (dev wildcard : String) : Reply :=
  if isAdminName dev then c.admDevProp.map (fun obj => .ok (c.getObjPropList obj wildcard))
  else
    match c.findDevAtt dev with
    | some x => some (.ok (c.getObjPropList x.devProp wildcard))
    | none => some (.error (deviceNotFound "Device " dev "DbServerCache::get_device_property_list"))

end Model

section Match
variable {w n : List Char}

theorem endsWith_iff {a n : List Char} : endsWith a n = true ↔ a <:+ n := by
  rw [← rfind_end]
  unfold endsWith
  cases rfind a n with
  | none => simp
  | some pos => simp

theorem storesName_plain (h : '*' ∉ w) : storesName w n = true ↔ n = w := by
  have hp : w.idxOf? '*' = none := by simpa using h
  unfold storesName
  rw [hp]
  exact decide_eq_true_iff

/-- Each side of the star is looked for on its own. -/
theorem storesName_wild {b a : List Char} (hb : '*' ∉ b) :
    storesName (b ++ '*' :: a) n = true ↔ b <+: n ∧ a <:+ n := by
  have hpos := idxOf?_append_sep hb a
  have hdrop : (b ++ '*' :: a).drop (b.length + 1) = a := by
    rw [← List.drop_drop,List.drop_left]
    rfl
  have hlen : (b ++ '*' :: a).length = b.length + (a.length + 1) := by
    rw [List.length_append,List.length_cons]
  unfold storesName
  rw [hpos]
  simp only
  rw [hdrop,List.take_left,hlen]
  split
  · rename_i hz
    rw [List.eq_nil_of_length_eq_zero hz]
    split
    · rename_i hone
      have ha : a = [] := List.eq_nil_of_length_eq_zero (by omega)
      simp [ha]
    · rw [endsWith_iff]
      simp
  · split
    · rename_i hlast
      have ha : a = [] := List.eq_nil_of_length_eq_zero (by omega)
      simp [ha,find_zero]
    · simp [find_zero,endsWith_iff]

theorem storesName_of_glob (h : Glob '*' w n) : storesName w n = true := by
  rcases star_cases '*' w with hw | ⟨b,a,rfl,hb⟩
  · exact (storesName_plain hw).mpr ((glob_plain hw).mp h)
  · obtain ⟨h1,h2,-⟩ := (glob_wild hb).mp h
    exact (storesName_wild hb).mpr ⟨h1,h2⟩

/-- A name is wrongly stored exactly where the two sides of the star lie over each other. -/
theorem glob_of_storesName (h : storesName w n = true) : Glob '*' w n ↔ ¬ Overlap '*' w n := by
  rcases star_cases '*' w with hw | ⟨b,a,rfl,hb⟩
  · exact iff_of_true ((glob_plain hw).mpr ((storesName_plain hw).mp h)) (overlap_plain hw)
  · obtain ⟨h1,h2⟩ := (storesName_wild hb).mp h
    rw [glob_wild hb,overlap_wild hb]
    simp [h1,h2]

theorem storesName_of_overlap (h : Overlap '*' w n) : storesName w n = true := by
  obtain ⟨b,a,rfl,hb,h1,h2,-⟩ := h
  exact (storesName_wild hb).mpr ⟨h1,h2⟩

end Match

section Lists

/-- The names that a wildcard stands for, without regard to case. -/
def globbed (wildcard : String) (names : List String) : List String :=
  names.filter (fun name => Glob '*' (lowerName wildcard) (lowerName name))

/-- No name is too short for both sides of the wildcard. -/
def NoOverlap (wildcard : String) (names : List String) : Prop :=
  ∀ name ∈ names, ¬ Overlap '*' (lowerName wildcard) (lowerName name)

theorem filter_storesName (wildcard : String) (names : List String) :
    names.filter (fun name => storesName (lowerName wildcard) (lowerName name)) = globbed wildcard names ↔
      NoOverlap wildcard names := by
  unfold globbed
  rw [filter_eq_filter_iff]
  · constructor
    · intro h name hname ho
      have hs := storesName_of_overlap ho
      exact (glob_of_storesName hs).mp (of_decide_eq_true (h name hname hs)) ho
    · intro h name hname hs
      exact decide_eq_true ((glob_of_storesName hs).mpr (h name hname))
  · intro name _ hg
    exact storesName_of_glob (of_decide_eq_true hg)

/-- The names in the cache are those that the wildcard stands for, exactly when none of them is too
short for it. -/
theorem prop_list_globbed_iff (c : DbServerCache) (obj : PropEltIdx) (wildcard : String) :
    c.getObjPropList obj wildcard = globbed wildcard (c.propNames obj) ↔
      NoOverlap wildcard (c.propNames obj) := filter_storesName wildcard _

/-- A name of three characters is listed for a wildcard with two on each side. -/
theorem short_name_listed : ∃ (c : DbServerCache) (obj : PropEltIdx),
    c.propNames obj = ["aba"] ∧ c.getObjPropList obj "ab*ba" = ["aba"] ∧
      globbed "ab*ba" (c.propNames obj) = [] := by
  refine ⟨⟨["aba"],0,⟨0,1⟩,none,none,none,none,none,[],none,none⟩,⟨0,0,1,[(0,0)]⟩,rfl,?_,?_⟩
  · decide
  · decide

end Lists

section Configuration
variable {c : DbServerCache} {conf : Config}

/-- What the database lists for a device. -/
def Config.devicePropertyList (conf : Config) (dev wildcard : String) : Except DevErrorList (List String) :=
  if isAdminName dev then .ok (globbed wildcard (conf.admDev.props.map DbDatum.name))
  else
    match conf.findDev dev with
    | some x => .ok (globbed wildcard (x.props.map DbDatum.name))
    | none => .error (deviceNotFound "Device " dev "DbServerCache::get_device_property_list")

/-- The names of the properties that are listed for a device, if it is there. -/
def Config.listedNames (conf : Config) (dev : String) : List String :=
  if isAdminName dev then conf.admDev.props.map DbDatum.name
  else ((conf.findDev dev).map (fun x => x.props.map DbDatum.name)).getD []

end Configuration

end CppTango.Db
