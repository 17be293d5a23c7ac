import CppTango.Device.DynamicTables
import Mathlib.Data.List.InsertIdx

namespace CppTango.Device.Dynamic

open CppTango.Lib

section Loop
variable {m : MultiAttr}

theorem assoc_plain {i : Nat} {a : Attribute} (hi : m.attrList[i]? = some a) (ha : a.hasAssoc = false) :
    AssocAt m i := by
  intro x hx hxa
  rw [hi,Option.some.injEq] at hx
  rw [← hx,ha] at hxa
  cases hxa

/-- The loop of `check_associated` when no attribute lacks its associated one. -/
theorem checkAll_fits (h : Tabled m) (hf : ∀ a ∈ m.defs, a.hasAssoc = true → Fits m.defs a)
    (devName : String) {is : List Nat} (hlt : ∀ i ∈ is, i < m.attrList.length) :
    ∃ m', m.checkAll devName is = (m',none) ∧ Same m m' ∧ (∀ i ∈ is, AssocAt m' i) ∧
      ∀ k, AssocAt m k → AssocAt m' k := by
  induction is generalizing m with
  | nil => exact ⟨m,rfl,Same.refl m,fun i hi => (by cases hi),fun k hk => hk⟩
  | cons i is ih =>
    obtain ⟨a,hi⟩ : ∃ a, m.attrList[i]? = some a := ⟨_,List.getElem?_eq_getElem (hlt i List.mem_cons_self)⟩
    have hlt' : ∀ k ∈ is, k < m.attrList.length := fun k hk => hlt k (List.mem_cons_of_mem _ hk)
    rw [MultiAttr.checkAll]
    cases ha : a.hasAssoc with
    | false =>
      rw [check_plain hi ha]
      obtain ⟨m',he,hs,hall,hkeep⟩ := ih h hf hlt'
      refine ⟨m',he,hs,?_,hkeep⟩
      intro k hk
      rcases List.mem_cons.mp hk with rfl | hk
      · exact hkeep k (assoc_plain hi ha)
      · exact hall k hk
    | true =>
      have hd : m.defs[i]? = some a.toAttrDef := by
        rw [defs_get,hi]
        rfl
      obtain ⟨b,hb,hn,hw,ht⟩ := hf _ (List.mem_of_getElem? hd) ha
      obtain ⟨j,hj⟩ := List.mem_iff_getElem?.mp hb
      rw [check_fits h hi ha hj hn hw ht]
      have hsame := same_reassoc m i j
      obtain ⟨hown,hothers⟩ := assoc_reassoc h hi hj hn
      have hlen : ∀ k ∈ is, k < (m.reassoc i j).attrList.length := by
        intro k hk
        simpa [MultiAttr.reassoc] using hlt' k hk
      obtain ⟨m',he,hs,hall,hkeep⟩ :=
        ih (h.of_alike hsame.toAlike) (by rw [hsame.defs]; exact hf) hlen
      refine ⟨m',he,hsame.trans hs,?_,?_⟩
      · intro k hk
        rcases List.mem_cons.mp hk with rfl | hk
        · exact hkeep k hown
        · exact hall k hk
      · intro k hk
        by_cases hki : k = i
        · subst hki
          exact hkeep k hown
        · exact hkeep k (hothers k hki hk)

theorem defs_length (m : MultiAttr) : m.defs.length = m.attrList.length := List.length_map _

/-- The loop over the whole vector. -/
theorem checkAll_range (h : Tabled m) (hf : ∀ a ∈ m.defs, a.hasAssoc = true → Fits m.defs a)
    (devName : String) :
    ∃ m', m.checkAll devName (List.range m.attrList.length) = (m',none) ∧ Same m m' ∧
      ∀ i, AssocAt m' i := by
  obtain ⟨m',he,hsame,hall,-⟩ := checkAll_fits h hf devName
    (fun k (hk : k ∈ List.range m.attrList.length) => List.mem_range.mp hk)
  refine ⟨m',he,hsame,?_⟩
  intro i
  by_cases hi : i < m.attrList.length
  · exact hall i (List.mem_range.mpr hi)
  · intro x hx
    have hlen := congrArg List.length hsame.defs
    rw [defs_length,defs_length] at hlen
    obtain ⟨hlt,-⟩ := List.getElem?_eq_some_iff.mp hx
    omega

end Loop

section Insert
variable {m : MultiAttr}

theorem mapOf_of {map : List Char → Option MapElement} {defs : List AttrDef}
    (h1 : ∀ (i : Nat) (a : AttrDef), defs[i]? = some a →
      map (lowerName a.name) = some ⟨a.ptr,(i : Int)⟩)
    (h2 : ∀ k, (∀ a ∈ defs, lowerName a.name ≠ k) → map k = none) : MapOf map defs := by
  intro k e
  constructor
  · intro hk
    by_cases hex : ∃ a ∈ defs, lowerName a.name = k
    · obtain ⟨a,ha,rfl⟩ := hex
      obtain ⟨i,hi⟩ := List.mem_iff_getElem?.mp ha
      rw [h1 i a hi,Option.some.injEq] at hk
      exact ⟨i,a,hi,rfl,hk.symm⟩
    · rw [h2 k (fun a ha he => hex ⟨a,ha,he⟩)] at hk
      cases hk
  · rintro ⟨i,a,hi,rfl,rfl⟩
    exact h1 i a hi

theorem insertIdx_length {α : Type} (l l' : List α) (a : α) :
    (l ++ l').insertIdx l.length a = l ++ a :: l' := by
  induction l with
  | nil => cases l' <;> rfl
  | cons x l ih => simp [List.insertIdx_succ_cons,ih]

theorem state_ne_status : lowerName "State" ≠ lowerName "Status" := by decide

/-- The map after a new attribute before State and Status. -/
theorem mapOf_insert {front : List AttrDef} {s t a : AttrDef} {map : List Char → Option MapElement}
    (h : MapOf map (front ++ [s,t])) (hs : s.name = "State") (ht : t.name = "Status")
    (hn : ((front ++ a :: [s,t]).map (fun a => lowerName a.name)).Nodup) :
    MapOf (incrementStateAndStatusIndexes (putAttributeInMap a front.length map))
      (front ++ a :: [s,t]) := by
  have hsn : lowerName s.name = lowerName "State" := by rw [hs]
  have htn : lowerName t.name = lowerName "Status" := by rw [ht]
  have hne := state_ne_status
  have hold : ∀ (i : Nat) (x : AttrDef), (front ++ [s,t])[i]? = some x →
      map (lowerName x.name) = some ⟨x.ptr,(i : Int)⟩ := fun i x hx => (h _ _).mpr ⟨i,x,hx,rfl,rfl⟩
  have hmap := List.nodup_append.mp (by rwa [List.map_append] at hn)
  obtain ⟨-,hrest,hdis⟩ := hmap
  have has : lowerName a.name ≠ lowerName "State" := by
    intro he
    simp [hsn,he] at hrest
  have hat : lowerName a.name ≠ lowerName "Status" := by
    intro he
    simp [htn,he] at hrest
  have hval : ∀ k, incrementStateAndStatusIndexes (putAttributeInMap a front.length map) k =
      if k = lowerName "Status" ∨ k = lowerName "State" then moveIndex 1 (map k)
      else if k = lowerName a.name then some ⟨a.ptr,(front.length : Int)⟩ else map k := by
    intro k
    unfold incrementStateAndStatusIndexes moveName putAttributeInMap
    by_cases h1 : k = lowerName "Status"
    · subst h1
      simp [Function.update_of_ne (Ne.symm hne),Function.update_of_ne (Ne.symm hat)]
    · by_cases h2 : k = lowerName "State"
      · subst h2
        simp [Function.update_of_ne hne,Function.update_of_ne (Ne.symm has)]
      · by_cases h3 : k = lowerName a.name
        · subst h3
          simp [h1,h2]
        · simp [h1,h2,h3]
  apply mapOf_of
  · intro i x hx
    rw [hval]
    by_cases hi : i < front.length
    · rw [List.getElem?_append_left hi] at hx
      have hxf : lowerName x.name ∈ front.map (fun a => lowerName a.name) :=
        List.mem_map_of_mem (List.mem_of_getElem? hx)
      have hx1 : lowerName x.name ≠ lowerName a.name := hdis _ hxf _ (by simp)
      have hx2 : lowerName x.name ≠ lowerName "State" := hdis _ hxf _ (by simp [hsn])
      have hx3 : lowerName x.name ≠ lowerName "Status" := hdis _ hxf _ (by simp [htn])
      rw [if_neg (by simp [hx2,hx3]),if_neg hx1]
      exact hold i x (by rw [List.getElem?_append_left hi,hx])
    · rw [List.getElem?_append_right (Nat.le_of_not_lt hi)] at hx
      obtain ⟨d,rfl⟩ := Nat.exists_eq_add_of_le (Nat.le_of_not_lt hi)
      rw [Nat.add_sub_cancel_left] at hx
      match d,hx with
      | 0,hx =>
        cases hx
        rw [if_neg (by simp [has,hat]),if_pos rfl]
        rfl
      | 1,hx =>
        cases hx
        rw [if_pos (Or.inr hsn),hold front.length s (by simp)]
        rfl
      | 2,hx =>
        cases hx
        rw [if_pos (Or.inl htn),hold (front.length + 1) t (by simp)]
        simp only [moveIndex,Option.getD_some,Option.some.injEq,MapElement.mk.injEq,true_and]
        omega
      | d + 3,hx => simp at hx
  · intro k hk
    have h1 : k ≠ lowerName "Status" := fun he => hk t (by simp) (htn.trans he.symm)
    have h2 : k ≠ lowerName "State" := fun he => hk s (by simp) (hsn.trans he.symm)
    have h3 : k ≠ lowerName a.name := fun he => hk a (by simp) he.symm
    rw [hval,if_neg (by simp [h1,h2]),if_neg h3]
    cases hm : map k with
    | none => rfl
    | some e =>
      obtain ⟨i,x,hx,hxk,-⟩ := (h _ _).mp hm
      have hxm := List.mem_of_getElem? hx
      exact absurd hxk (hk x (by
        simp only [List.mem_append,List.mem_cons] at hxm ⊢
        rcases hxm with hxm | hxm
        · exact Or.inl hxm
        · exact Or.inr (Or.inr hxm)))

theorem split_ends (h : Shape m) : ∃ F S T, m.attrList = F ++ [S,T] ∧ isEnd "State" S.toAttrDef ∧
    isEnd "Status" T.toAttrDef := by
  obtain ⟨front,s,t,hd,hs,ht⟩ := h.ends
  obtain ⟨F,E,he,-,hE⟩ := List.map_eq_append_iff.mp hd
  obtain ⟨S,E',rfl,rfl,hE'⟩ := List.map_eq_cons_iff.mp hE
  obtain ⟨T,E,rfl,rfl,hE''⟩ := List.map_eq_cons_iff.mp hE'
  rw [List.map_eq_nil_iff] at hE''
  subst hE''
  exact ⟨F,S,T,he,hs,ht⟩

theorem isEnd_kinds {name : String} {a : AttrDef} (h : isEnd name a) :
    a.isWritable = false ∧ a.isAlarmed = false ∧ a.hasAssoc = false := by
  obtain ⟨-,hw,ha⟩ := h
  unfold AttrDef.isWritable AttrDef.isAlarmed AttrDef.hasAssoc
  simp [hw,ha]

/-- The tables with the new attribute, before the check of its associated one. -/
def MultiAttr.inserted (m : MultiAttr) (a : Attribute) : MultiAttr :=
  (m.insertAttr a).1.noteKinds a.toAttrDef (m.insertAttr a).2

theorem insertAttr_index {F : List Attribute} {S T : Attribute} (he : m.attrList = F ++ [S,T])
    (ht : T.name = "Status") (a : Attribute) :
    (m.insertAttr a).2 = F.length ∧ (m.inserted a).attrList = F ++ a :: [S,T] ∧
      (m.inserted a).attrMap =
        incrementStateAndStatusIndexes (putAttributeInMap a.toAttrDef F.length m.attrMap) := by
  have hlast : (m.attrList.getLast?).map (fun a => a.name) = some "Status" := by
    rw [he]
    simp [ht]
  have hlen : m.attrList.length = F.length + 2 := by
    rw [he]
    simp
  unfold MultiAttr.inserted MultiAttr.insertAttr
  rw [if_pos hlast,hlen]
  refine ⟨rfl,?_,rfl⟩
  change m.attrList.insertIdx F.length a = F ++ a :: [S,T]
  rw [he,insertIdx_length]

theorem insertAttr_kinds (a : Attribute) :
    (m.insertAttr a).1.writableAttrList = m.writableAttrList ∧
      (m.insertAttr a).1.alarmAttrList = m.alarmAttrList ∧ (m.insertAttr a).1.devName = m.devName := by
  unfold MultiAttr.insertAttr
  split <;> exact ⟨rfl,rfl,rfl⟩

/-- What a new attribute has to be for a device. -/
structure NewFor (m : MultiAttr) (a : Attribute) : Prop where
  name : ∀ d ∈ m.defs, lowerName d.name ≠ lowerName a.name
  ptr : ∀ d ∈ m.defs, d.ptr ≠ a.ptr
  own : a.writable = .readWrite → a.assocName = a.name

theorem names_new (h : Tabled m) {a : Attribute} (ha : NewFor m a) {defs : List AttrDef}
    (hp : defs.Perm (a.toAttrDef :: m.defs)) : (defs.map (fun a => lowerName a.name)).Nodup := by
  rw [(hp.map _).nodup_iff,List.map_cons,List.nodup_cons]
  refine ⟨?_,h.names⟩
  intro hmem
  obtain ⟨d,hd,hde⟩ := List.mem_map.mp hmem
  exact ha.name d hd hde

/-- The tables of a device with one attribute more. -/
theorem tabled_new (h : Tabled m) {a : Attribute} (ha : NewFor m a) {m' : MultiAttr}
    (hp : m'.defs.Perm (a.toAttrDef :: m.defs)) (hm : MapOf m'.attrMap m'.defs)
    (hw : m'.writableAttrList = positions AttrDef.isWritable m'.defs)
    (hal : m'.alarmAttrList = positions AttrDef.isAlarmed m'.defs) : Tabled m' := by
  refine ⟨hm,hw,hal,names_new h ha hp,?_,?_⟩
  · rw [(hp.map _).nodup_iff,List.map_cons,List.nodup_cons]
    refine ⟨?_,h.ptrs⟩
    intro hmem
    obtain ⟨d,hd,hde⟩ := List.mem_map.mp hmem
    exact ha.ptr d hd hde
  · intro d hd hdw
    rcases List.mem_cons.mp (hp.mem_iff.mp hd) with rfl | hd
    · exact ha.own hdw
    · exact h.own d hd hdw

theorem shape_inserted (h : Shape m) {a : Attribute} (ha : NewFor m a) : Shape (m.inserted a) := by
  obtain ⟨F,S,T,he,hS,hT⟩ := split_ends h
  obtain ⟨hidx,hl,hm⟩ := insertAttr_index he hT.1 a
  have hold : m.defs = F.map Attribute.toAttrDef ++ [S.toAttrDef,T.toAttrDef] := by
    rw [MultiAttr.defs,he]
    simp
  have hnew : (m.inserted a).defs =
      F.map Attribute.toAttrDef ++ a.toAttrDef :: [S.toAttrDef,T.toAttrDef] := by
    rw [MultiAttr.defs,hl]
    simp
  have hperm : (m.inserted a).defs.Perm (a.toAttrDef :: m.defs) := by
    rw [hnew,hold]
    exact List.perm_middle
  have hlenF : (F.map Attribute.toAttrDef).length = F.length := List.length_map _
  have hends : ∀ p : AttrDef → Bool, p S.toAttrDef = false → p T.toAttrDef = false →
      positions p (m.inserted a).defs =
        positions p m.defs ++ (if p a.toAttrDef then [(F.length : Int)] else []) := by
    intro p hs ht
    rw [hnew,hold,positions_insert (by simp [hs,ht]),hlenF]
  refine ⟨tabled_new h.toTabled ha hperm ?_ ?_ ?_,?_⟩
  · rw [hm,hnew,← hlenF]
    apply mapOf_insert _ hS.1 hT.1
    · rw [← hnew]
      exact names_new h.toTabled ha hperm
    · rw [← hold]
      exact h.map
  · rw [hends _ (isEnd_kinds hS).1 (isEnd_kinds hT).1,← h.writable]
    unfold MultiAttr.inserted MultiAttr.noteKinds
    rw [hidx,(insertAttr_kinds a).1]
    cases a.isWritable <;> simp
  · rw [hends _ (isEnd_kinds hS).2.1 (isEnd_kinds hT).2.1,← h.alarm]
    unfold MultiAttr.inserted MultiAttr.noteKinds
    rw [hidx,(insertAttr_kinds a).2.1]
    cases a.isAlarmed <;> simp
  · refine ⟨F.map Attribute.toAttrDef ++ [a.toAttrDef],_,_,?_,hS,hT⟩
    rw [hnew]
    simp

/-- An associated attribute that exists can be written and has the same type. -/
def Fitting (defs : List AttrDef) (a : AttrDef) : Prop :=
  a.hasAssoc = true → ∀ b ∈ defs, lowerName b.name = lowerName a.assocName →
    b.isWritable = true ∧ a.dataType = b.dataType

theorem mem_inserted (h : Shape m) (a : Attribute) {x : Attribute} :
    x ∈ (m.inserted a).attrList ↔ x = a ∨ x ∈ m.attrList := by
  obtain ⟨F,S,T,he,-,hT⟩ := split_ends h
  obtain ⟨-,hl,-⟩ := insertAttr_index he hT.1 a
  rw [hl,he,List.perm_middle.mem_iff,List.mem_cons]

theorem defs_inserted (h : Shape m) (a : Attribute) {d : AttrDef} :
    d ∈ (m.inserted a).defs ↔ d = a.toAttrDef ∨ d ∈ m.defs := by
  unfold MultiAttr.defs
  rw [List.mem_map,List.mem_map]
  constructor
  · rintro ⟨x,hx,rfl⟩
    rcases (mem_inserted h a).mp hx with rfl | hx
    · exact Or.inl rfl
    · exact Or.inr ⟨x,hx,rfl⟩
  · rintro (rfl | ⟨x,hx,rfl⟩)
    · exact ⟨a,(mem_inserted h a).mpr (Or.inl rfl),rfl⟩
    · exact ⟨x,(mem_inserted h a).mpr (Or.inr hx),rfl⟩

/-- A new attribute that no other one waits for leaves the positions of the associated ones. -/
theorem assoc_inserted (h : Shape m) (hfit : ∀ x ∈ m.defs, Fitting m.defs x)
    (hassoc : ∀ i, AssocAt m i) {a : Attribute}
    (hwait : ∀ x ∈ m.defs, x.hasAssoc = true → lowerName a.name ≠ lowerName x.assocName) {i : Nat}
    (hi : i ≠ (m.insertAttr a).2) : AssocAt (m.inserted a) i := by
  obtain ⟨F,S,T,he,hS,hT⟩ := split_ends h
  obtain ⟨hidx,hl,-⟩ := insertAttr_index he hT.1 a
  rw [hidx] at hi
  intro x hx ha j b hj hn
  rw [hl] at hx
  rw [defs_get,hl] at hj
  have hxF : i < F.length := by
    by_contra hge
    obtain ⟨d,rfl⟩ := Nat.exists_eq_add_of_le (Nat.le_of_not_lt hge)
    rw [List.getElem?_append_right (by omega),Nat.add_sub_cancel_left] at hx
    match d,hx with
    | 0,_ => exact hi rfl
    | 1,hx =>
      cases hx
      simp [(isEnd_kinds hS).2.2] at ha
    | 2,hx =>
      cases hx
      simp [(isEnd_kinds hT).2.2] at ha
    | d + 3,hx => simp at hx
  rw [List.getElem?_append_left hxF] at hx
  have hxm : m.attrList[i]? = some x := by rw [he,List.getElem?_append_left hxF,hx]
  have hxd : x.toAttrDef ∈ m.defs := List.mem_map_of_mem (List.mem_of_getElem? hxm)
  have hnoEnd : ∀ y ∈ m.attrList, y.isWritable = false → lowerName y.name ≠ lowerName x.assocName := by
    intro y hy hw hyn
    have := (hfit _ hxd ha _ (List.mem_map_of_mem hy) hyn).1
    rw [hw] at this
    cases this
  by_cases hjF : j < F.length
  · rw [List.getElem?_append_left hjF] at hj
    exact hassoc i x hxm ha j b (by rw [defs_get,he,List.getElem?_append_left hjF,hj]) hn
  · obtain ⟨d,rfl⟩ := Nat.exists_eq_add_of_le (Nat.le_of_not_lt hjF)
    rw [List.getElem?_append_right (by omega),Nat.add_sub_cancel_left] at hj
    match d,hj with
    | 0,hj =>
      cases hj
      exact absurd hn (hwait _ hxd ha)
    | 1,hj =>
      cases hj
      exact absurd hn (hnoEnd S (by rw [he]; simp) (isEnd_kinds hS).1)
    | 2,hj =>
      cases hj
      exact absurd hn (hnoEnd T (by rw [he]; simp) (isEnd_kinds hT).1)
    | d + 3,hj => simp at hj

theorem inserted_get (h : Shape m) (a : Attribute) :
    (m.inserted a).attrList[(m.insertAttr a).2]? = some a := by
  obtain ⟨F,S,T,he,-,hT⟩ := split_ends h
  obtain ⟨hidx,hl,-⟩ := insertAttr_index he hT.1 a
  rw [hidx,hl]
  simp

end Insert

section Erase
variable {m : MultiAttr} {i : Nat} {a : Attribute}

theorem eraseAttr_defs (m : MultiAttr) (i : Nat) (a : AttrDef) :
    (m.eraseAttr i a).defs = m.defs.eraseIdx i := by
  unfold MultiAttr.defs MultiAttr.eraseAttr
  simp only [List.eraseIdx_map]

theorem names_erased (h : Tabled m) (i : Nat) :
    ((m.defs.eraseIdx i).map (fun x => lowerName x.name)).Nodup := by
  rw [← List.eraseIdx_map]
  exact h.names.sublist (List.eraseIdx_sublist _ _)

theorem names_dropped (m : MultiAttr) (i : Nat) :
    ((m.attrList.eraseIdx i).drop i).map (fun x => lowerName x.name) =
      ((m.defs.eraseIdx i).drop i).map (fun x => lowerName x.name) := by
  unfold MultiAttr.defs
  rw [List.eraseIdx_map,← List.map_drop,List.map_map]
  rfl

/-- The names whose index moves are those from the removed place on. -/
theorem mem_dropped {k : List Char} :
    k ∈ ((m.attrList.eraseIdx i).drop i).map (fun x => lowerName x.name) ↔
      ∃ (j : Nat) (x : AttrDef), i ≤ j ∧ (m.defs.eraseIdx i)[j]? = some x ∧ lowerName x.name = k := by
  rw [names_dropped,List.mem_map]
  constructor
  · rintro ⟨x,hx,rfl⟩
    obtain ⟨d,hd⟩ := List.mem_iff_getElem?.mp hx
    rw [List.getElem?_drop] at hd
    exact ⟨i + d,x,Nat.le_add_right _ _,hd,rfl⟩
  · rintro ⟨j,x,hij,hx,rfl⟩
    refine ⟨x,List.mem_iff_getElem?.mpr ⟨j - i,?_⟩,rfl⟩
    rw [List.getElem?_drop,Nat.add_sub_cancel' hij,hx]

/-- The map after a removal: the attributes behind have moved. -/
theorem mapOf_erase (h : Tabled m) (hi : m.attrList[i]? = some a) :
    MapOf (m.eraseAttr i a.toAttrDef).attrMap (m.defs.eraseIdx i) := by
  have hdi : m.defs[i]? = some a.toAttrDef := by
    rw [defs_get,hi]
    rfl
  have hold : ∀ (k : Nat) (x : AttrDef), m.defs[k]? = some x →
      m.attrMap (lowerName x.name) = some ⟨x.ptr,(k : Int)⟩ :=
    fun k x hx => (h.map _ _).mpr ⟨k,x,hx,rfl,rfl⟩
  have hnd := names_erased h i
  have hndrop : (((m.attrList.eraseIdx i).drop i).map (fun x => lowerName x.name)).Nodup := by
    rw [names_dropped,List.map_drop]
    exact hnd.sublist (List.drop_sublist _ _)
  apply mapOf_of
  · intro j x hx
    have hx' := hx
    rw [List.getElem?_eraseIdx] at hx
    by_cases hji : j < i
    · rw [if_pos hji] at hx
      have hout : lowerName x.name ∉ ((m.attrList.eraseIdx i).drop i).map (fun x => lowerName x.name) := by
        rw [mem_dropped]
        rintro ⟨k,y,hik,hy,hyn⟩
        have := same_place hnd hx' hy hyn.symm
        omega
      have hne : lowerName x.name ≠ lowerName a.name := by
        intro he
        have := same_place h.names hx hdi he
        omega
      change updSlots _ _ _ _ _ = _
      rw [updSlots_of_not_mem hout,Function.update_of_ne hne,hold j x hx]
    · rw [if_neg hji] at hx
      have hin := mem_dropped.mpr ⟨j,x,Nat.le_of_not_lt hji,hx',rfl⟩
      obtain ⟨y,hy,hyn⟩ := List.mem_map.mp hin
      have hne : lowerName y.name ≠ lowerName a.name := by
        rw [hyn]
        intro he
        have := same_place h.names hx hdi he
        omega
      change updSlots _ _ _ _ _ = _
      rw [← hyn,updSlots_of_mem hndrop hy,Function.update_of_ne hne,hyn,hold (j + 1) x hx]
      simp only [moveIndex,Option.getD_some,Option.some.injEq,MapElement.mk.injEq,true_and]
      omega
  · intro k hk
    have hout : k ∉ ((m.attrList.eraseIdx i).drop i).map (fun x => lowerName x.name) := by
      rw [mem_dropped]
      rintro ⟨j,x,-,hx,hxk⟩
      exact hk x (List.mem_of_getElem? hx) hxk
    change updSlots _ _ _ _ _ = _
    rw [updSlots_of_not_mem hout]
    by_cases hka : k = lowerName a.name
    · rw [hka,Function.update_self]
    · rw [Function.update_of_ne hka]
      cases hm : m.attrMap k with
      | none => rfl
      | some e =>
        obtain ⟨j,x,hx,hxk,-⟩ := (h.map _ _).mp hm
        have hji : j ≠ i := by
          rintro rfl
          rw [hdi,Option.some.injEq] at hx
          exact hka (by rw [← hxk,← hx])
        have hmem : x ∈ m.defs.eraseIdx i := List.mem_eraseIdx_iff_getElem?.mpr ⟨j,hji,hx⟩
        exact absurd hxk (hk x hmem)

/-- The tables after a removal and the rebuilding of the two lists. -/
theorem shape_erased (h : Shape m) (hi : m.attrList[i]? = some a)
    (hn : a.name ≠ "State" ∧ a.name ≠ "Status") {m' : MultiAttr} (hd : m'.defs = m.defs.eraseIdx i)
    (hm : m'.attrMap = (m.eraseAttr i a.toAttrDef).attrMap) : Shape m'.rebuildKinds := by
  have hdefs : m'.rebuildKinds.defs = m.defs.eraseIdx i := hd
  refine ⟨⟨?_,rfl,rfl,?_,?_,?_⟩,?_⟩
  · rw [hdefs]
    change MapOf m'.attrMap _
    rw [hm]
    exact mapOf_erase h.toTabled hi
  · rw [hdefs,← List.eraseIdx_map]
    exact h.names.sublist (List.eraseIdx_sublist _ _)
  · rw [hdefs,← List.eraseIdx_map]
    exact h.ptrs.sublist (List.eraseIdx_sublist _ _)
  · rw [hdefs]
    intro x hx
    exact h.own x (List.mem_of_mem_eraseIdx hx)
  · obtain ⟨front,s,t,he,hs,ht⟩ := h.ends
    have hdi : m.defs[i]? = some a.toAttrDef := by
      rw [defs_get,hi]
      rfl
    have hlt : i < front.length := by
      by_contra hge
      rw [he,List.getElem?_append_right (Nat.le_of_not_lt hge)] at hdi
      have hmem := List.mem_of_getElem? hdi
      simp only [List.mem_cons,List.not_mem_nil,or_false] at hmem
      rcases hmem with hmem | hmem
      · exact hn.1 (by rw [← hs.1,← hmem])
      · exact hn.2 (by rw [← ht.1,← hmem])
    exact ⟨front.eraseIdx i,s,t,by rw [hdefs,he,List.eraseIdx_append_of_lt_length hlt],hs,ht⟩

end Erase

end CppTango.Device.Dynamic
