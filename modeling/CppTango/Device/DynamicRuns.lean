import CppTango.Device.DynamicSpec

namespace CppTango.Device.Dynamic

open CppTango.Lib

section Added
variable {m : MultiAttr} {a : Attribute}

/-- A new attribute at the end, as the constructor adds it. -/
def MultiAttr.added (m : MultiAttr) (a : Attribute) : MultiAttr :=
  (m.addAttr a).noteKinds a.toAttrDef m.attrList.length

theorem added_defs (m : MultiAttr) (a : Attribute) : (m.added a).defs = m.defs ++ [a.toAttrDef] := by
  unfold MultiAttr.defs MultiAttr.added MultiAttr.noteKinds MultiAttr.addAttr
  simp

theorem mapOf_added (h : Tabled m) (ha : NewFor m a) :
    MapOf (m.added a).attrMap (m.added a).defs := by
  have hold : ∀ (i : Nat) (x : AttrDef), m.defs[i]? = some x →
      m.attrMap (lowerName x.name) = some ⟨x.ptr,(i : Int)⟩ :=
    fun i x hx => (h.map _ _).mpr ⟨i,x,hx,rfl,rfl⟩
  have hmap : (m.added a).attrMap = putAttributeInMap a.toAttrDef m.attrList.length m.attrMap := rfl
  rw [added_defs,hmap]
  unfold putAttributeInMap
  apply mapOf_of
  · intro i x hx
    by_cases hi : i < m.defs.length
    · rw [List.getElem?_append_left hi] at hx
      rw [Function.update_of_ne (ha.name x (List.mem_of_getElem? hx)),hold i x hx]
    · rw [List.getElem?_append_right (Nat.le_of_not_lt hi)] at hx
      obtain ⟨d,rfl⟩ := Nat.exists_eq_add_of_le (Nat.le_of_not_lt hi)
      rw [Nat.add_sub_cancel_left] at hx
      match d,hx with
      | 0,hx =>
        cases hx
        rw [Function.update_self,defs_length]
        rfl
      | d + 1,hx => simp at hx
  · intro k hk
    have hka : k ≠ lowerName a.name := fun he => hk a.toAttrDef (by simp) he.symm
    rw [Function.update_of_ne hka]
    cases hm : m.attrMap k with
    | none => rfl
    | some e =>
      obtain ⟨i,x,hx,hxk,-⟩ := (h.map _ _).mp hm
      exact absurd hxk (hk x (List.mem_append_left _ (List.mem_of_getElem? hx)))

theorem tabled_added (h : Tabled m) (ha : NewFor m a) : Tabled (m.added a) := by
  have hd := added_defs m a
  have hpos : ∀ p : AttrDef → Bool, positions p (m.added a).defs =
      positions p m.defs ++ (if p a.toAttrDef then [(m.attrList.length : Int)] else []) := by
    intro p
    have hnil : ∀ b ∈ ([] : List AttrDef), p b = false := fun b hb => (by cases hb)
    have hone : positions p (m.defs ++ a.toAttrDef :: []) = positions p (m.defs ++ []) ++
        (if p a.toAttrDef then [(m.defs.length : Int)] else []) := positions_insert hnil
    rw [List.append_nil,defs_length] at hone
    rw [hd,hone]
  apply tabled_new h ha
  · rw [hd]
    exact List.perm_append_singleton _ _
  · exact mapOf_added h ha
  · rw [hpos,← h.writable]
    unfold MultiAttr.added MultiAttr.noteKinds MultiAttr.addAttr
    cases a.isWritable <;> simp
  · rw [hpos,← h.alarm]
    unfold MultiAttr.added MultiAttr.noteKinds MultiAttr.addAttr
    cases a.isAlarmed <;> simp

/-- A last attribute without an associated one leaves the others theirs. -/
theorem assoc_added (ha : NewFor m a) (hk : a.hasAssoc = false)
    (hfits : ∀ x ∈ m.defs, x.hasAssoc = true → Fits m.defs x) (hassoc : ∀ i, AssocAt m i) :
    ∀ i, AssocAt (m.added a) i := by
  intro i x hx hxa j b hj hn
  have hl : (m.added a).attrList = m.attrList ++ [a] := rfl
  rw [hl] at hx
  rw [added_defs] at hj
  by_cases hi : i < m.attrList.length
  · rw [List.getElem?_append_left hi] at hx
    have hxd : x.toAttrDef ∈ m.defs := List.mem_map_of_mem (List.mem_of_getElem? hx)
    obtain ⟨b',hb',hn',-,-⟩ := hfits _ hxd hxa
    by_cases hjl : j < m.defs.length
    · rw [List.getElem?_append_left hjl] at hj
      exact hassoc i x hx hxa j b hj hn
    · rw [List.getElem?_append_right (Nat.le_of_not_lt hjl)] at hj
      have hb := List.mem_of_getElem? hj
      rw [List.mem_singleton] at hb
      subst hb
      exact absurd (hn'.trans hn.symm) (ha.name b' hb')
  · rw [List.getElem?_append_right (Nat.le_of_not_lt hi)] at hx
    have hxm := List.mem_of_getElem? hx
    rw [List.mem_singleton] at hxm
    subst hxm
    rw [hk] at hxa
    cases hxa

theorem fits_added (hk : a.hasAssoc = false)
    (hfits : ∀ x ∈ m.defs, x.hasAssoc = true → Fits m.defs x) :
    ∀ x ∈ (m.added a).defs, x.hasAssoc = true → Fits (m.added a).defs x := by
  rw [added_defs]
  intro x hx hxa
  rcases List.mem_append.mp hx with hx | hx
  · obtain ⟨b,hb,hn⟩ := hfits x hx hxa
    exact ⟨b,List.mem_append_left _ hb,hn⟩
  · rw [List.mem_singleton] at hx
    subst hx
    rw [hk] at hxa
    cases hxa

end Added

section Loop
variable {m : MultiAttr}

/-- A loop of `check_associated` that comes to its end found every associated attribute. -/
theorem checkAll_none (h : Tabled m) {devName : String} {is : List Nat} {m' : MultiAttr}
    (hc : m.checkAll devName is = (m',none)) :
    ∀ i ∈ is, ∀ a, m.attrList[i]? = some a → a.hasAssoc = true → Fits m.defs a.toAttrDef := by
  induction is generalizing m with
  | nil => exact fun i hi => (by cases hi)
  | cons k is ih =>
    rw [MultiAttr.checkAll] at hc
    cases hk : m.attrList[k]? with
    | none =>
      have he : m.checkAssociated k devName = .error [] := by
        unfold MultiAttr.checkAssociated
        rw [hk]
      rw [he] at hc
      cases hc
    | some x =>
      have hfit : x.hasAssoc = true → Fits m.defs x.toAttrDef := by
        intro hx
        by_contra hf
        obtain ⟨e,he⟩ := check_misfits h hk hx hf devName
        rw [he] at hc
        cases hc
      have hrest : ∃ m₁, m.checkAssociated k devName = .ok m₁ ∧ Same m m₁ := by
        cases hx : x.hasAssoc with
        | false => exact ⟨m,check_plain hk hx devName,Same.refl m⟩
        | true =>
          obtain ⟨b,hb,hn,hw,ht⟩ := hfit hx
          obtain ⟨j,hj⟩ := List.mem_iff_getElem?.mp hb
          exact ⟨_,check_fits h hk hx hj hn hw ht devName,same_reassoc m k j⟩
      obtain ⟨m₁,hok,hsame⟩ := hrest
      rw [hok] at hc
      have hih := ih (h.of_alike hsame.toAlike) hc
      intro i hi a ha haa
      rcases List.mem_cons.mp hi with rfl | hi
      · rw [hk,Option.some.injEq] at ha
        subst ha
        exact hfit haa
      · have hd : m₁.defs[i]? = m.defs[i]? := by rw [hsame.defs]
        rw [defs_get,defs_get,ha,Option.map_some,Option.map_eq_some_iff] at hd
        obtain ⟨a₁,ha₁,hae⟩ := hd
        have := hih i hi a₁ ha₁ (by rw [hae]; exact haa)
        rwa [hsame.defs,hae] at this

end Loop
section Construct
variable {classList : List Attr} {ptr : Nat} {alarmed : Nat → Bool}

/-- No two attributes of the class have names that differ in letter case only. -/
structure ClassOk (classList : List Attr) : Prop where
  names : (classList.map (fun a => lowerName a.name)).Nodup
  ends : ∀ a ∈ classList, lowerName a.name ≠ lowerName "State" ∧ lowerName a.name ≠ lowerName "Status"

theorem getAttr_self (h : ClassOk classList) {e : Attr} (he : e ∈ classList) :
    getAttr classList e.name = some e := by
  unfold getAttr
  cases hf : classList.find? (fun a => lowerName a.name = lowerName e.name) with
  | none =>
    have := List.find?_eq_none.mp hf e he
    simp at this
  | some b =>
    have hb := List.mem_of_find?_eq_some hf
    have hn : lowerName b.name = lowerName e.name := by simpa using List.find?_some hf
    rw [List.inj_on_of_nodup_map h.names hb he hn]

def classAttrs (ptr : Nat) (alarmed : Nat → Bool) (l : List Attr) : List Attribute :=
  l.zipIdx.map (fun x => newAttribute (ptr + x.2) x.1 (alarmed x.2) x.2)

theorem classAttrs_append (l : List Attr) (e : Attr) :
    classAttrs ptr alarmed (l ++ [e]) = classAttrs ptr alarmed l ++
      [newAttribute (ptr + l.length) e (alarmed l.length) l.length] := by
  unfold classAttrs
  rw [List.zipIdx_append,List.map_append]
  simp

theorem mem_classAttrs {l : List Attr} {a : Attribute} (h : a ∈ classAttrs ptr alarmed l) :
    ∃ (i : Nat) (e : Attr), l[i]? = some e ∧ a = newAttribute (ptr + i) e (alarmed i) i := by
  obtain ⟨x,hx,rfl⟩ := List.mem_map.mp h
  exact ⟨x.2,x.1,List.mem_zipIdx_iff_getElem?.mp hx,rfl⟩

theorem newFor_class {l : List Attr} {e : Attr} {m : MultiAttr}
    (hn : ((l ++ [e]).map (fun a => lowerName a.name)).Nodup)
    (hm : m.attrList = classAttrs ptr alarmed l) :
    NewFor m (newAttribute (ptr + l.length) e (alarmed l.length) l.length) := by
  have hold : ∀ d ∈ m.defs, ∃ (i : Nat) (e' : Attr), l[i]? = some e' ∧
      d = (newAttribute (ptr + i) e' (alarmed i) i).toAttrDef := by
    intro d hd
    obtain ⟨a,ha,rfl⟩ := List.mem_map.mp hd
    rw [hm] at ha
    obtain ⟨i,e',hi,rfl⟩ := mem_classAttrs ha
    exact ⟨i,e',hi,rfl⟩
  refine ⟨?_,?_,?_⟩
  · intro d hd
    obtain ⟨i,e',hi,rfl⟩ := hold d hd
    rw [List.map_append,List.nodup_append] at hn
    apply hn.2.2
    · exact List.mem_map_of_mem (List.mem_of_getElem? hi)
    · simp [newAttribute]
  · intro d hd
    obtain ⟨i,e',hi,rfl⟩ := hold d hd
    obtain ⟨hlt,-⟩ := List.getElem?_eq_some_iff.mp hi
    simp only [newAttribute]
    omega
  · intro hw
    have hw' : e.writable = .readWrite := hw
    simp [newAttribute,Attr.assoc,hw']

variable (ptr alarmed) in
theorem construct_loop (h : ClassOk classList) (rest : List Attr) :
    ∀ (l : List Attr) (m : MultiAttr), classList = l ++ rest → Tabled m →
      m.attrList = classAttrs ptr alarmed l →
      ∃ m', (rest.zipIdx l.length).foldl (MultiAttr.addClassAttr classList ptr alarmed) m = m' ∧
        Tabled m' ∧ m'.attrList = classAttrs ptr alarmed classList := by
  induction rest with
  | nil =>
    intro l m hc ht hm
    rw [List.append_nil] at hc
    subst hc
    exact ⟨m,rfl,ht,hm⟩
  | cons e rest ih =>
    intro l m hc ht hm
    have hc' : classList = (l ++ [e]) ++ rest := by
      rw [hc]
      simp
    have he : e ∈ classList := by
      rw [hc]
      simp
    have hlen : m.attrList.length = l.length := by
      rw [hm]
      simp [classAttrs]
    have hstep : MultiAttr.addClassAttr classList ptr alarmed m (e,l.length) =
        m.added (newAttribute (ptr + l.length) e (alarmed l.length) l.length) := by
      unfold MultiAttr.addClassAttr MultiAttr.added
      rw [getAttr_self h he,hlen]
    have hnd : ((l ++ [e]).map (fun a => lowerName a.name)).Nodup := by
      have := h.names
      rw [hc',List.map_append] at this
      exact (List.nodup_append.mp this).1
    have htab := tabled_added ht (newFor_class hnd hm)
    have hnext := ih (l ++ [e]) _ hc' htab (by
      rw [classAttrs_append,← hm]
      rfl)
    rw [List.zipIdx_cons,List.foldl_cons,hstep]
    rw [List.length_append] at hnext
    exact hnext

theorem fitting_of_fits {m : MultiAttr} (h : Tabled m) {x : AttrDef}
    (hfits : x.hasAssoc = true → Fits m.defs x) : Fitting m.defs x := by
  intro hx b hb hn
  obtain ⟨b',hb',hn',hw,ht⟩ := hfits hx
  obtain ⟨i,hi⟩ := List.mem_iff_getElem?.mp hb
  obtain ⟨j,hj⟩ := List.mem_iff_getElem?.mp hb'
  have hij := same_place h.names hi hj (hn.trans hn'.symm)
  rw [hij,hj,Option.some.injEq] at hi
  rw [← hi]
  exact ⟨hw,ht⟩

theorem tabled_none (devName : String) : Tabled (MultiAttr.none devName) := by
  refine ⟨?_,rfl,rfl,List.nodup_nil,List.nodup_nil,fun a ha => (by cases ha)⟩
  intro k e
  constructor
  · intro h
    cases h
  · rintro ⟨i,a,hi,-⟩
    cases hi

theorem indexed_class (h : ClassOk classList) :
    ∀ a ∈ classAttrs ptr alarmed classList, Indexed classList a := by
  intro a ha
  obtain ⟨i,e,hi,rfl⟩ := mem_classAttrs ha
  obtain ⟨h1,h2⟩ := h.ends e (List.mem_of_getElem? hi)
  refine ⟨?_,fun _ => ⟨i,e,rfl,hi,rfl⟩⟩
  rintro (hn | hn)
  · exact absurd (congrArg lowerName hn) h1
  · exact absurd (congrArg lowerName hn) h2

/-- What a constructor that does not throw gives. -/
theorem construct_spec (h : ClassOk classList) {devName : String} {m : MultiAttr}
    (hc : MultiAttr.construct devName classList ptr alarmed = (m,none)) :
    Tabled m ∧ (∀ i, AssocAt m i) ∧ (∀ x ∈ m.defs, x.hasAssoc = true → Fits m.defs x) ∧
      m.defs = (classAttrs ptr alarmed classList).map Attribute.toAttrDef ∧
      ∀ a ∈ m.attrList, Indexed classList a := by
  obtain ⟨m₁,hloop,ht,hl⟩ :=
    construct_loop ptr alarmed h classList [] _ rfl (tabled_none devName) rfl
  have hm₁ : classList.zipIdx.foldl (MultiAttr.addClassAttr classList ptr alarmed)
      (MultiAttr.none devName) = m₁ := hloop
  unfold MultiAttr.construct at hc
  simp only [hm₁] at hc
  have hfits : ∀ x ∈ m₁.defs, x.hasAssoc = true → Fits m₁.defs x := by
    intro x hx hxa
    obtain ⟨a,ha,rfl⟩ := List.mem_map.mp hx
    obtain ⟨i,hi⟩ := List.mem_iff_getElem?.mp ha
    obtain ⟨hlt,-⟩ := List.getElem?_eq_some_iff.mp hi
    exact checkAll_none ht hc i (List.mem_range.mpr hlt) a hi hxa
  obtain ⟨m₂,hc₂,hsame,hall⟩ := checkAll_range ht hfits devName
  rw [hc₂,Prod.mk.injEq] at hc
  obtain ⟨rfl,-⟩ := hc
  refine ⟨ht.of_alike hsame.toAlike,hall,?_,?_,?_⟩
  · rw [hsame.defs]
    exact hfits
  · rw [hsame.defs,← hl]
    rfl
  · apply indexed_same hsame
    rw [hl]
    exact indexed_class h

/-- A device as it is after its constructor, with State and Status. -/
theorem deviceOk_construct (h : ClassOk classList) {devName : String} {m : MultiAttr}
    (hc : MultiAttr.construct devName classList ptr alarmed = (m,none)) :
    DeviceOk classList (ptr + classList.length + 2) (m.addStateStatusAttrs (ptr + classList.length)) := by
  obtain ⟨ht,hassoc,hfits,hdefs,hidx⟩ := construct_spec h hc
  have hold : ∀ d ∈ m.defs, ∃ (i : Nat) (e : Attr), classList[i]? = some e ∧ d.name = e.name ∧
      d.ptr = ptr + i := by
    intro d hd
    rw [hdefs] at hd
    obtain ⟨a,ha,rfl⟩ := List.mem_map.mp hd
    obtain ⟨i,e,hi,rfl⟩ := mem_classAttrs ha
    exact ⟨i,e,hi,rfl,rfl⟩
  have hlt : ∀ d ∈ m.defs, d.ptr < ptr + classList.length := by
    intro d hd
    obtain ⟨i,e,hi,-,hp⟩ := hold d hd
    obtain ⟨hlt,-⟩ := List.getElem?_eq_some_iff.mp hi
    omega
  have hends : ∀ d ∈ m.defs, lowerName d.name ≠ lowerName "State" ∧
      lowerName d.name ≠ lowerName "Status" := by
    intro d hd
    obtain ⟨i,e,hi,hn,-⟩ := hold d hd
    rw [hn]
    exact h.ends e (List.mem_of_getElem? hi)
  generalize hS : endAttribute (ptr + classList.length) "State" 19 = S
  generalize hT : endAttribute (ptr + classList.length + 1) "Status" 8 = T
  have hms : m.addStateStatusAttrs (ptr + classList.length) = (m.added S).added T := by
    rw [← hS,← hT]
    rfl
  have hnewS : NewFor m S := by
    rw [← hS]
    refine ⟨fun d hd => (hends d hd).1,fun d hd => Nat.ne_of_lt (hlt d hd),fun hw => (by cases hw)⟩
  have hnewT : NewFor (m.added S) T := by
    rw [← hT]
    refine ⟨?_,?_,fun hw => (by cases hw)⟩
    · intro d hd
      rw [added_defs] at hd
      rcases List.mem_append.mp hd with hd | hd
      · exact (hends d hd).2
      · rw [List.mem_singleton] at hd
        rw [hd,← hS]
        exact state_ne_status
    · intro d hd
      rw [added_defs] at hd
      rcases List.mem_append.mp hd with hd | hd
      · have := hlt d hd
        simp only [endAttribute]
        omega
      · rw [List.mem_singleton] at hd
        rw [hd,← hS]
        simp [endAttribute]
  have hkS : S.hasAssoc = false := by
    rw [← hS]
    rfl
  have hkT : T.hasAssoc = false := by
    rw [← hT]
    rfl
  have htS := tabled_added ht hnewS
  have htT := tabled_added htS hnewT
  have hfS := fits_added hkS hfits
  have hfT := fits_added hkT hfS
  have hdT : ((m.added S).added T).defs = m.defs ++ [S.toAttrDef,T.toAttrDef] := by
    rw [added_defs,added_defs,List.append_assoc]
    rfl
  rw [hms]
  refine ⟨⟨htT,m.defs,_,_,hdT,?_,?_⟩,assoc_added hnewT hkT hfS (assoc_added hnewS hkS hfits hassoc),
    fun x hx => fitting_of_fits htT (hfT x hx),?_,?_⟩
  · rw [← hS]
    exact ⟨rfl,rfl,rfl⟩
  · rw [← hT]
    exact ⟨rfl,rfl,rfl⟩
  · intro x hx
    have hl : ((m.added S).added T).attrList = m.attrList ++ [S,T] :=
      List.append_assoc m.attrList [S] [T]
    rw [hl] at hx
    simp only [List.mem_append,List.mem_cons,List.not_mem_nil,or_false] at hx
    rcases hx with hx | rfl | rfl
    · exact hidx x hx
    · rw [← hS]
      exact ⟨fun _ => rfl,fun hn => absurd (Or.inl rfl) hn⟩
    · rw [← hT]
      exact ⟨fun _ => rfl,fun hn => absurd (Or.inr rfl) hn⟩
  · intro d hd
    rw [hdT] at hd
    simp only [List.mem_append,List.mem_cons,List.not_mem_nil,or_false] at hd
    rcases hd with hd | hd | hd
    · have := hlt d hd
      omega
    · rw [hd,← hS]
      simp only [endAttribute]
      omega
    · rw [hd,← hT]
      simp only [endAttribute]
      omega

theorem consistent_createDevice {w : World} (hc : ClassOk w.classList) (h : Consistent w)
    (devName : String) (alarmed : Nat → Bool) :
    (w.createDevice devName alarmed).classList = w.classList ∧ Consistent (w.createDevice devName alarmed) := by
  unfold World.createDevice
  rcases he : MultiAttr.construct devName w.classList w.nextPtr alarmed with ⟨m,_ | e⟩
  · refine ⟨rfl,?_⟩
    intro x hx
    rcases List.mem_append.mp hx with hx | hx
    · exact (h x hx).later (by simp only; omega)
    · rw [List.mem_singleton] at hx
      subst hx
      exact deviceOk_construct hc he
  · exact ⟨rfl,h⟩

theorem consistent_started (hc : ClassOk classList) (devs : List (String × (Nat → Bool))) :
    Consistent (started classList devs) := by
  have hall : ∀ (devs : List (String × (Nat → Bool))) (w : World), w.classList = classList →
      Consistent w → Consistent (devs.foldl (fun w d => w.createDevice d.1 d.2) w) := by
    intro devs
    induction devs with
    | nil => exact fun w _ h => h
    | cons d devs ih =>
      intro w hw h
      obtain ⟨hcl,hcons⟩ := consistent_createDevice (by rw [hw]; exact hc) h d.1 d.2
      exact ih _ (hcl.trans hw) hcons
  exact hall devs _ rfl (fun m hm => (by cases hm))

end Construct

section Tables

/-- The index tables of a device agree with its attributes and with the class list. -/
structure Tables (classList : List Attr) (m : MultiAttr) : Prop where
  map : MapOf m.attrMap m.defs
  ends : ∃ front s t, m.defs = front ++ [s,t] ∧ s.name = "State" ∧ t.name = "Status"
  writable : m.writableAttrList = positions AttrDef.isWritable m.defs
  alarm : m.alarmAttrList = positions AttrDef.isAlarmed m.defs
  own : ∀ a ∈ m.defs, a.writable = .readWrite → a.assocName = a.name
  assoc : ∀ i, AssocAt m i
  idx : ∀ a ∈ m.attrList, ¬ isStateOrStatus a.name → HasEntry classList a

theorem DeviceOk.tables {classList : List Attr} {nextPtr : Nat} {m : MultiAttr}
    (h : DeviceOk classList nextPtr m) : Tables classList m := by
  obtain ⟨front,s,t,he,hs,ht⟩ := h.ends
  exact ⟨h.map,⟨front,s,t,he,hs.1,ht.1⟩,h.writable,h.alarm,h.own,h.assoc,fun a ha => (h.idx a ha).2⟩

/-- Requests that meet their conditions keep the tables of every device, after each of them. -/
theorem dynamic_tables_consistent (classList : List Attr) (hc : ClassOk classList)
    (devs : List (String × (Nat → Bool))) (rs : List Request)
    (hs : SteadyRun (started classList devs) rs) (n : Nat) :
    ∀ m ∈ (run (started classList devs) (rs.take n)).devices,
      Tables (run (started classList devs) (rs.take n)).classList m := by
  intro m hm
  have h := consistent_run (consistent_started hc devs) (steadyRun_take hs n)
  exact (h m hm).tables

def sampleAttr (name : String) (writable : AttrWriteType) (assocName : String) : Attr :=
  ⟨name,"Motor",5,.scalar,writable,assocName⟩

/-- A class whose READ_WITH_WRITE attribute has its associated one. -/
def sampleClass : List Attr :=
  [sampleAttr "SetPoint" .write "None",sampleAttr "Position" .readWithWrite "SetPoint",
    sampleAttr "Speed" .readWrite "None"]

theorem sampleClass_ok : ClassOk sampleClass := ⟨by decide,by decide⟩

def sampleStart : World := started sampleClass [("a/b/c",fun _ => false),("a/b/d",fun i => i = 1)]

def sampleRequests : List Request :=
  [.add 0 (sampleAttr "Temperature" .read "None") true,.add 1 (sampleAttr "TEMPERATURE" .read "None") false,
    .remove 0 (sampleAttr "speed" .readWrite "None"),.remove 1 (sampleAttr "Speed" .readWrite "None")]

theorem dynamic_tables_motor :
    SteadyRun sampleStart sampleRequests ∧ (run sampleStart sampleRequests).devices.length = 2 ∧
      ∀ m ∈ (run sampleStart (sampleRequests.take 4)).devices,
        Tables (run sampleStart (sampleRequests.take 4)).classList m := by
  have hs : SteadyRun sampleStart sampleRequests := by decide +kernel
  exact ⟨hs,by decide +kernel,dynamic_tables_consistent sampleClass sampleClass_ok _ sampleRequests hs 4⟩

/-- The removal of an associated attribute throws before the positions behind it are refreshed. -/
theorem removed_setpoint_leaves_speed : ClassOk sampleClass ∧
    ¬ ∀ m ∈ (run sampleStart [.remove 0 (sampleAttr "SetPoint" .write "None")]).devices,
      Tables (run sampleStart [.remove 0 (sampleAttr "SetPoint" .write "None")]).classList m := by
  refine ⟨sampleClass_ok,?_⟩
  intro h
  let speed : Attribute := { newAttribute 2 (sampleAttr "Speed" .readWrite "None") false 2 with
    assocInd := some 2 }
  have hspeed : ∃ m ∈ (run sampleStart [.remove 0 (sampleAttr "SetPoint" .write "None")]).devices,
      m.attrList[1]? = some speed := by decide +kernel
  obtain ⟨m,hm,hx⟩ := hspeed
  have hd : m.defs[1]? = some speed.toAttrDef := by
    rw [defs_get,hx]
    rfl
  have := (h m hm).assoc 1 speed hx rfl 1 _ hd rfl
  exact absurd this (by decide)

end Tables

end CppTango.Device.Dynamic
