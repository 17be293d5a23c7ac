import CppTango.Device.Dynamic

namespace CppTango.Device.Dynamic

open CppTango.Lib

section Positions
variable {p : AttrDef → Bool}

theorem positions_append (l l' : List AttrDef) :
    positions p (l ++ l') = positions p l ++ (positions p l').map (fun i => i + (l.length : Int)) := by
  unfold positions
  rw [List.zipIdx_append,List.filter_append,List.map_append,List.map_map]
  congr 1
  rw [Nat.zero_add,List.zipIdx_eq_map_add]
  simp only [List.filter_map,List.map_map]
  apply List.map_congr_left
  intro x _
  simp [Int.add_comm]

theorem positions_none {l : List AttrDef} (h : ∀ a ∈ l, p a = false) : positions p l = [] := by
  unfold positions
  rw [List.map_eq_nil_iff,List.filter_eq_nil_iff]
  intro x hx
  rw [h x.1 (List.mem_of_getElem? (List.mem_zipIdx_iff_getElem?.mp hx))]
  simp

theorem positions_single (a : AttrDef) : positions p [a] = if p a then [0] else [] := by
  unfold positions
  cases h : p a <;> simp [h]

/-- A new attribute before others that are not of the kind. -/
theorem positions_insert {front ends : List AttrDef} {a : AttrDef} (he : ∀ b ∈ ends, p b = false) :
    positions p (front ++ a :: ends) =
      positions p (front ++ ends) ++ (if p a then [(front.length : Int)] else []) := by
  rw [← List.singleton_append,← List.append_assoc,positions_append (front ++ [a]),
    positions_append front,positions_append front,positions_none he,positions_single]
  cases p a <;> simp

end Positions

section Shape

/-- The map: exactly the names of the vector, each with its attribute and its position. -/
def MapOf (map : List Char → Option MapElement) (defs : List AttrDef) : Prop :=
  ∀ k e, map k = some e ↔ ∃ (i : Nat) (a : AttrDef), defs[i]? = some a ∧ lowerName a.name = k ∧ e = ⟨a.ptr,(i : Int)⟩

def isEnd (name : String) (a : AttrDef) : Prop :=
  a.name = name ∧ a.writable = .read ∧ a.alarmed = false

/-- The tables of a device, as far as they do not depend on associated attributes. -/
structure Tabled (m : MultiAttr) : Prop where
  map : MapOf m.attrMap m.defs
  writable : m.writableAttrList = positions AttrDef.isWritable m.defs
  alarm : m.alarmAttrList = positions AttrDef.isAlarmed m.defs
  names : (m.defs.map (fun a => lowerName a.name)).Nodup
  ptrs : (m.defs.map AttrDef.ptr).Nodup
  own : ∀ a ∈ m.defs, a.writable = .readWrite → a.assocName = a.name

/-- State and Status are the last two. -/
structure Shape (m : MultiAttr) : Prop extends Tabled m where
  ends : ∃ front s t, m.defs = front ++ [s,t] ∧ isEnd "State" s ∧ isEnd "Status" t

/-- Every attribute that has an associated one knows its position. -/
def AssocAt (m : MultiAttr) (i : Nat) : Prop :=
  ∀ a, m.attrList[i]? = some a → a.hasAssoc = true → ∀ (j : Nat) (b : AttrDef), m.defs[j]? = some b →
    lowerName b.name = lowerName a.assocName → a.assocInd = some (j : Int)

variable {m : MultiAttr}

theorem defs_get {i : Nat} : m.defs[i]? = (m.attrList[i]?).map Attribute.toAttrDef := by
  rw [MultiAttr.defs,List.getElem?_map]

theorem same_place {l : List AttrDef} (h : (l.map (fun a => lowerName a.name)).Nodup) {i j : Nat}
    {a b : AttrDef} (hi : l[i]? = some a) (hj : l[j]? = some b)
    (he : lowerName a.name = lowerName b.name) : i = j := by
  obtain ⟨hil,rfl⟩ := List.getElem?_eq_some_iff.mp hi
  obtain ⟨hjl,rfl⟩ := List.getElem?_eq_some_iff.mp hj
  have hi' : i < (l.map (fun a => lowerName a.name)).length := by simpa using hil
  have hj' : j < (l.map (fun a => lowerName a.name)).length := by simpa using hjl
  have heq : (l.map (fun a => lowerName a.name))[i] = (l.map (fun a => lowerName a.name))[j] := by
    simpa using he
  exact (List.Nodup.getElem_inj_iff h).mp heq

theorem map_some (h : Tabled m) {i : Nat} {a : AttrDef} (hi : m.defs[i]? = some a) {name : String}
    (hn : lowerName a.name = lowerName name) :
    m.attrMap (lowerName name) = some ⟨a.ptr,(i : Int)⟩ :=
  (h.map _ _).mpr ⟨i,a,hi,hn,rfl⟩

theorem getAttrIndByName_of (h : Tabled m) {i : Nat} {a : AttrDef} (hi : m.defs[i]? = some a)
    {name : String} (hn : lowerName a.name = lowerName name) :
    m.getAttrIndByName name = .ok (i : Int) := by
  unfold MultiAttr.getAttrIndByName
  rw [map_some h hi hn]

theorem at_of {i : Nat} {a : Attribute} (hi : m.attrList[i]? = some a) : m.at (i : Int) = some a := by
  unfold MultiAttr.at
  rw [if_pos (Int.natCast_nonneg i),Int.toNat_natCast,hi]

theorem find_ptr (h : Tabled m) {i : Nat} {a : Attribute} (hi : m.attrList[i]? = some a) :
    m.attrList.find? (fun b => b.ptr = a.ptr) = some a := by
  have hnd : (m.attrList.map (fun b => b.ptr)).Nodup := by
    have := h.ptrs
    rwa [MultiAttr.defs,List.map_map] at this
  have hmem := List.mem_of_getElem? hi
  cases hf : m.attrList.find? (fun b => b.ptr = a.ptr) with
  | none =>
    have := List.find?_eq_none.mp hf a hmem
    simp at this
  | some b =>
    have hb := List.mem_of_find?_eq_some hf
    have hp : b.ptr = a.ptr := by simpa using List.find?_some hf
    rw [List.inj_on_of_nodup_map hnd hb hmem hp]

/-- A name is found when the vector has it. -/
theorem getAttrByName_of (h : Tabled m) {i : Nat} {a : Attribute} (hi : m.attrList[i]? = some a)
    {name : String} (hn : lowerName a.name = lowerName name) : m.getAttrByName name = .ok a := by
  have hd : m.defs[i]? = some a.toAttrDef := by rw [defs_get,hi]; rfl
  unfold MultiAttr.getAttrByName
  rw [map_some h hd hn]
  simp only [Option.bind_some,find_ptr h hi]

theorem getAttrByName_ok (h : Tabled m) {name : String} {a : Attribute}
    (hg : m.getAttrByName name = .ok a) :
    ∃ i : Nat, m.attrList[i]? = some a ∧ lowerName a.name = lowerName name := by
  unfold MultiAttr.getAttrByName at hg
  split at hg
  next b hb =>
    cases hg
    obtain ⟨e,he,hf⟩ := Option.bind_eq_some_iff.mp hb
    obtain ⟨i,d,hd,hn,rfl⟩ := (h.map _ _).mp he
    rw [defs_get,Option.map_eq_some_iff] at hd
    obtain ⟨x,hx,rfl⟩ := hd
    have hfx := find_ptr h hx
    simp only at hf
    rw [hfx,Option.some.injEq] at hf
    subst hf
    exact ⟨i,hx,hn⟩
  next => cases hg

theorem getAttrByName_error (h : Tabled m) {name : String} {e : DevErrorList}
    (hg : m.getAttrByName name = .error e) : ∀ a ∈ m.defs, lowerName a.name ≠ lowerName name := by
  intro d hd hn
  obtain ⟨a,ha,rfl⟩ := List.mem_map.mp hd
  obtain ⟨i,hi⟩ := List.mem_iff_getElem?.mp ha
  rw [getAttrByName_of h hi hn] at hg
  cases hg

end Shape

section Associated
variable {m m' : MultiAttr}

/-- Two devices that differ only in the numbers their attributes carry. -/
structure Alike (m m' : MultiAttr) : Prop where
  defs : m'.defs = m.defs
  attrMap : m'.attrMap = m.attrMap
  writable : m'.writableAttrList = m.writableAttrList
  alarm : m'.alarmAttrList = m.alarmAttrList

/-- Two devices that differ only in the positions of associated attributes. -/
structure Same (m m' : MultiAttr) : Prop extends Alike m m' where
  attrIdx : m'.attrList.map Attribute.attrIdx = m.attrList.map Attribute.attrIdx

theorem Same.refl (m : MultiAttr) : Same m m := ⟨⟨rfl,rfl,rfl,rfl⟩,rfl⟩

theorem Same.trans {m₁ m₂ m₃ : MultiAttr} (h : Same m₁ m₂) (h' : Same m₂ m₃) : Same m₁ m₃ :=
  ⟨⟨h'.defs.trans h.defs,h'.attrMap.trans h.attrMap,h'.writable.trans h.writable,
    h'.alarm.trans h.alarm⟩,h'.attrIdx.trans h.attrIdx⟩

theorem Tabled.of_alike (h : Tabled m) (hs : Alike m m') : Tabled m' := by
  refine ⟨?_,?_,?_,?_,?_,?_⟩
  · rw [hs.attrMap,hs.defs]
    exact h.map
  · rw [hs.writable,hs.defs]
    exact h.writable
  · rw [hs.alarm,hs.defs]
    exact h.alarm
  · rw [hs.defs]
    exact h.names
  · rw [hs.defs]
    exact h.ptrs
  · rw [hs.defs]
    exact h.own

theorem Shape.of_alike (h : Shape m) (hs : Alike m m') : Shape m' := by
  refine ⟨h.toTabled.of_alike hs,?_⟩
  rw [hs.defs]
  exact h.ends

def MultiAttr.reassoc (m : MultiAttr) (i : Nat) (j : Int) : MultiAttr :=
  { m with attrList := m.attrList.modify i (setAssocInd j) }

theorem map_modify_same {α β : Type} (f : α → β) (g : α → α) (h : ∀ a, f (g a) = f a) (l : List α)
    (i : Nat) : (l.modify i g).map f = l.map f := by
  apply List.ext_getElem?
  intro k
  rw [List.getElem?_map,List.getElem?_map,List.getElem?_modify]
  cases l[k]? with
  | none => rfl
  | some a =>
    by_cases hk : i = k
    · simp [hk,h]
    · simp [hk]

theorem same_reassoc (m : MultiAttr) (i : Nat) (j : Int) : Same m (m.reassoc i j) :=
  ⟨⟨map_modify_same Attribute.toAttrDef (setAssocInd j) (fun _ => rfl) _ _,rfl,rfl,rfl⟩,
    map_modify_same Attribute.attrIdx (setAssocInd j) (fun _ => rfl) _ _⟩

/-- The associated attribute is there, can be written and has the same type. -/
def Fits (defs : List AttrDef) (a : AttrDef) : Prop :=
  ∃ b ∈ defs, lowerName b.name = lowerName a.assocName ∧ b.isWritable = true ∧ a.dataType = b.dataType

theorem check_plain {i : Nat} {a : Attribute} (hi : m.attrList[i]? = some a) (ha : a.hasAssoc = false)
    (devName : String) : m.checkAssociated i devName = .ok m := by
  unfold MultiAttr.checkAssociated
  rw [hi]
  simp only [ha,if_true]

theorem check_fits (h : Tabled m) {i : Nat} {a : Attribute} (hi : m.attrList[i]? = some a)
    (ha : a.hasAssoc = true) {j : Nat} {b : AttrDef} (hj : m.defs[j]? = some b)
    (hn : lowerName b.name = lowerName a.assocName) (hw : b.isWritable = true)
    (ht : a.dataType = b.dataType) (devName : String) :
    m.checkAssociated i devName = .ok (m.reassoc i j) := by
  have hind := getAttrIndByName_of h hj hn
  rw [defs_get,Option.map_eq_some_iff] at hj
  obtain ⟨x,hx,rfl⟩ := hj
  have hat := at_of hx
  unfold MultiAttr.checkAssociated
  rw [hi]
  simp only [ha,hind,hat,hw,ht,Bool.true_eq_false,if_false,ne_eq,not_true_eq_false]
  rfl

theorem check_misfits (h : Tabled m) {i : Nat} {a : Attribute} (hi : m.attrList[i]? = some a)
    (ha : a.hasAssoc = true) (hf : ¬ Fits m.defs a.toAttrDef) (devName : String) :
    ∃ e, m.checkAssociated i devName = .error e := by
  unfold MultiAttr.checkAssociated
  rw [hi]
  simp only [ha,Bool.true_eq_false,if_false]
  cases hg : m.getAttrIndByName a.assocName with
  | error e => exact ⟨_,rfl⟩
  | ok ind =>
    unfold MultiAttr.getAttrIndByName at hg
    cases hm : m.attrMap (lowerName a.assocName) with
    | none =>
      rw [hm] at hg
      cases hg
    | some e =>
      rw [hm] at hg
      cases hg
      obtain ⟨j,b,hj,hn,rfl⟩ := (h.map _ _).mp hm
      have hb := List.mem_of_getElem? hj
      rw [defs_get,Option.map_eq_some_iff] at hj
      obtain ⟨x,hx,rfl⟩ := hj
      simp only [at_of hx]
      split
      · exact ⟨_,rfl⟩
      · split
        · exact ⟨_,rfl⟩
        next hw ht =>
          exact absurd ⟨_,hb,hn,by simpa using hw,by simpa using ht⟩ hf

/-- A check that returns leaves the position of its attribute right and the others alone. -/
theorem assoc_reassoc (h : Tabled m) {i j : Nat} {a : Attribute} (hi : m.attrList[i]? = some a)
    {b : AttrDef} (hj : m.defs[j]? = some b) (hn : lowerName b.name = lowerName a.assocName) :
    AssocAt (m.reassoc i j) i ∧ ∀ k, k ≠ i → AssocAt m k → AssocAt (m.reassoc i j) k := by
  have hdefs := (same_reassoc m i j).defs
  constructor
  · intro x hx _ k c hk hkn
    rw [hdefs] at hk
    simp only [MultiAttr.reassoc,List.getElem?_modify,hi,if_true,Option.map_eq_map,Option.map_some,
      Option.some.injEq] at hx
    subst hx
    have he : j = k := same_place h.names hj hk (hn.trans hkn.symm)
    rw [← he]
    rfl
  · intro k hk hold x hx ha l c hl hln
    rw [hdefs] at hl
    have hx' : m.attrList[k]? = some x := by
      simpa [MultiAttr.reassoc,List.getElem?_modify,Ne.symm hk] using hx
    exact hold x hx' ha l c hl hln

end Associated

end CppTango.Device.Dynamic
