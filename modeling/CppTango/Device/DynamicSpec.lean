import CppTango.Device.DynamicSteps

namespace CppTango.Device.Dynamic

open CppTango.Lib

section Indexed
variable {classList : List Attr} {m m' : MultiAttr}

/-- The attribute's index in the class list is the one of an entry with its name. -/
def HasEntry (classList : List Attr) (a : Attribute) : Prop :=
  ∃ (k : Nat) (e : Attr), a.attrIdx = (k : Int) ∧ classList[k]? = some e ∧
    lowerName e.name = lowerName a.name

def isStateOrStatus (name : String) : Prop := name = "State" ∨ name = "Status"

instance (name : String) : Decidable (isStateOrStatus name) := inferInstanceAs (Decidable (_ ∨ _))

def Indexed (classList : List Attr) (a : Attribute) : Prop :=
  (isStateOrStatus a.name → a.attrIdx = -1) ∧ (¬ isStateOrStatus a.name → HasEntry classList a)

/-- All tables of a device, for the class list and the objects made so far. -/
structure DeviceOk (classList : List Attr) (nextPtr : Nat) (m : MultiAttr) : Prop extends Shape m where
  assoc : ∀ i, AssocAt m i
  fitting : ∀ a ∈ m.defs, Fitting m.defs a
  idx : ∀ a ∈ m.attrList, Indexed classList a
  fresh : ∀ a ∈ m.defs, a.ptr < nextPtr

theorem HasEntry.append {a : Attribute} (h : HasEntry classList a) (l : List Attr) :
    HasEntry (classList ++ l) a := by
  obtain ⟨k,e,hk,he,hn⟩ := h
  have hlt : k < classList.length := by
    obtain ⟨hlt,-⟩ := List.getElem?_eq_some_iff.mp he
    exact hlt
  exact ⟨k,e,hk,by rw [List.getElem?_append_left hlt,he],hn⟩

theorem Indexed.append {a : Attribute} (h : Indexed classList a) (l : List Attr) :
    Indexed (classList ++ l) a :=
  ⟨h.1,fun hn => (h.2 hn).append l⟩

theorem DeviceOk.grow {nextPtr : Nat} (h : DeviceOk classList nextPtr m) (l : List Attr) :
    DeviceOk (classList ++ l) nextPtr m :=
  ⟨h.toShape,h.assoc,h.fitting,fun a ha => (h.idx a ha).append l,h.fresh⟩

theorem DeviceOk.later {n n' : Nat} (h : DeviceOk classList n m) (hn : n ≤ n') :
    DeviceOk classList n' m :=
  ⟨h.toShape,h.assoc,h.fitting,h.idx,fun a ha => Nat.lt_of_lt_of_le (h.fresh a ha) hn⟩

/-- The class list without one entry, for an attribute made for another one. -/
theorem HasEntry.shift {a : Attribute} (h : HasEntry classList a) {q : Nat} (hq : a.attrIdx ≠ (q : Int)) :
    HasEntry (classList.eraseIdx q) (shiftIdx (q : Int) a) := by
  obtain ⟨k,e,hk,he,hn⟩ := h
  rw [hk] at hq
  by_cases hlt : q < k
  · refine ⟨k - 1,e,?_,?_,hn⟩
    · unfold shiftIdx
      simp only [hk]
      rw [if_pos (by omega)]
      omega
    · rw [List.getElem?_eraseIdx,if_neg (by omega),Nat.sub_add_cancel (by omega),he]
  · refine ⟨k,e,?_,?_,hn⟩
    · unfold shiftIdx
      simp only [hk]
      rw [if_neg (by omega)]
    · rw [List.getElem?_eraseIdx,if_pos (by omega),he]

theorem shiftIdx_end {a : Attribute} (h : a.attrIdx = -1) {q : Nat} : shiftIdx (q : Int) a = a := by
  unfold shiftIdx
  rw [if_neg (by omega)]

theorem Indexed.shift {a : Attribute} (h : Indexed classList a) {q : Nat} (hq : a.attrIdx ≠ (q : Int)) :
    Indexed (classList.eraseIdx q) (shiftIdx (q : Int) a) := by
  refine ⟨?_,fun hn => (h.2 hn).shift hq⟩
  intro hn
  rw [shiftIdx_end (h.1 hn)]
  exact h.1 hn

/-- What carries over to a device that differs in the positions of associated attributes only. -/
theorem indexed_same (hs : Same m m') (h : ∀ a ∈ m.attrList, Indexed classList a) :
    ∀ a ∈ m'.attrList, Indexed classList a := by
  intro a ha
  obtain ⟨i,hi⟩ := List.mem_iff_getElem?.mp ha
  have hd : m'.defs[i]? = m.defs[i]? := by rw [hs.defs]
  have hx : (m'.attrList.map Attribute.attrIdx)[i]? = (m.attrList.map Attribute.attrIdx)[i]? := by
    rw [hs.attrIdx]
  rw [defs_get,defs_get,hi] at hd
  rw [List.getElem?_map,List.getElem?_map,hi] at hx
  cases hb : m.attrList[i]? with
  | none =>
    rw [hb] at hd
    cases hd
  | some b =>
    rw [hb] at hd hx
    simp only [Option.map_some,Option.some.injEq] at hd hx
    have hb' := h b (List.mem_of_getElem? hb)
    unfold Indexed HasEntry at *
    rw [hx,show a.name = b.name by rw [hd]]
    exact hb'

end Indexed

section Add
variable {classList : List Attr} {nextPtr : Nat} {m : MultiAttr}

theorem not_end_of_new (h : Shape m) {name : String} (hn : ∀ d ∈ m.defs, lowerName d.name ≠ lowerName name) :
    ¬ isStateOrStatus name := by
  obtain ⟨front,s,t,he,hs,ht⟩ := h.ends
  rintro (rfl | rfl)
  · exact hn s (by rw [he]; simp) (by rw [hs.1])
  · exact hn t (by rw [he]; simp) (by rw [ht.1])

/-- A new attribute of a device, for which its associated one fits and no other one waits. -/
structure Welcome (m : MultiAttr) (a : Attribute) : Prop extends NewFor m a where
  fitting : Fitting (m.inserted a).defs a.toAttrDef
  awaited : ∀ x ∈ m.defs, x.hasAssoc = true → lowerName a.name ≠ lowerName x.assocName

theorem deviceOk_inserted (h : DeviceOk classList nextPtr m) {a : Attribute} (ha : Welcome m a)
    (hidx : Indexed classList a) (hp : a.ptr = nextPtr) :
    Shape (m.inserted a) ∧ (∀ i, i ≠ (m.insertAttr a).2 → AssocAt (m.inserted a) i) ∧
      (∀ x ∈ (m.inserted a).defs, Fitting (m.inserted a).defs x) ∧
      (∀ x ∈ (m.inserted a).attrList, Indexed classList x) ∧
      ∀ x ∈ (m.inserted a).defs, x.ptr < nextPtr + 1 := by
  have hs := h.toShape
  refine ⟨shape_inserted hs ha.toNewFor,?_,?_,?_,?_⟩
  · intro i hi
    exact assoc_inserted hs h.fitting h.assoc ha.awaited hi
  · intro x hx
    rcases (defs_inserted hs a).mp hx with rfl | hx
    · exact ha.fitting
    · intro hxa b hb hn
      rcases (defs_inserted hs a).mp hb with rfl | hb
      · exact absurd hn (ha.awaited x hx hxa)
      · exact h.fitting x hx hxa b hb hn
  · intro x hx
    rcases (mem_inserted hs a).mp hx with rfl | hx
    · exact hidx
    · exact h.idx x hx
  · intro x hx
    rcases (defs_inserted hs a).mp hx with rfl | hx
    · omega
    · exact Nat.lt_succ_of_lt (h.fresh x hx)

/-- `MultiAttribute::add_attribute` from the check of the associated attribute on. -/
theorem deviceOk_checked (h : DeviceOk classList nextPtr m) {a : Attribute} (ha : Welcome m a)
    (hidx : Indexed classList a) (hp : a.ptr = nextPtr) (devName : String) :
    DeviceOk classList (nextPtr + 1) (match (m.inserted a).checkAssociated (m.insertAttr a).2 devName with
      | .error _ => m.inserted a
      | .ok m => m) := by
  obtain ⟨hs,hassoc,hfit,hind,hfresh⟩ := deviceOk_inserted h ha hidx hp
  have hget := inserted_get h.toShape a
  have hkeep : AssocAt (m.inserted a) (m.insertAttr a).2 →
      DeviceOk classList (nextPtr + 1) (m.inserted a) := by
    intro hown
    refine ⟨hs,?_,hfit,hind,hfresh⟩
    intro i
    by_cases hi : i = (m.insertAttr a).2
    · rw [hi]
      exact hown
    · exact hassoc i hi
  cases hha : a.hasAssoc with
  | false =>
    rw [check_plain hget hha]
    exact hkeep (assoc_plain hget hha)
  | true =>
    by_cases hex : ∃ b ∈ (m.inserted a).defs, lowerName b.name = lowerName a.assocName
    · obtain ⟨b,hb,hn⟩ := hex
      obtain ⟨j,hj⟩ := List.mem_iff_getElem?.mp hb
      obtain ⟨hw,ht⟩ := ha.fitting hha b hb hn
      rw [check_fits hs.toTabled hget hha hj hn hw ht]
      obtain ⟨hown,hothers⟩ := assoc_reassoc hs.toTabled hget hj hn
      have hsame := same_reassoc (m.inserted a) (m.insertAttr a).2 (j : Int)
      refine ⟨hs.of_alike hsame.toAlike,?_,?_,indexed_same hsame hind,?_⟩
      · intro i
        by_cases hi : i = (m.insertAttr a).2
        · rw [hi]
          exact hown
        · exact hothers i hi (hassoc i hi)
      · rw [hsame.defs]
        exact hfit
      · rw [hsame.defs]
        exact hfresh
    · have hmis : ¬ Fits (m.inserted a).defs a.toAttrDef := by
        rintro ⟨b,hb,hn,-,-⟩
        exact hex ⟨b,hb,hn⟩
      obtain ⟨e,he⟩ := check_misfits hs.toTabled hget hha hmis devName
      rw [he]
      apply hkeep
      intro x hx _ j b hj hn
      rw [hget,Option.some.injEq] at hx
      subst hx
      exact absurd ⟨b,List.mem_of_getElem? hj,hn⟩ hex

theorem getAttr_some {name : String} {attr : Attr} (h : getAttr classList name = some attr) :
    lowerName attr.name = lowerName name := by
  simpa using List.find?_some h

/-- `MultiAttribute::add_attribute` keeps the tables of its device. -/
theorem deviceOk_addAttribute (h : DeviceOk classList nextPtr m) {i : Nat} {e attr : Attr}
    (hi : classList[i]? = some e) (hattr : getAttr classList e.name = some attr) {alarmed : Bool}
    (ha : Welcome m (newAttribute nextPtr attr alarmed i)) :
    DeviceOk classList (nextPtr + 1) (m.addAttribute classList nextPtr i alarmed).1 := by
  have hidx : Indexed classList (newAttribute nextPtr attr alarmed i) :=
    ⟨fun hn => absurd hn (not_end_of_new h.toShape ha.name),
      fun _ => ⟨i,e,rfl,hi,(getAttr_some hattr).symm⟩⟩
  have hc := deviceOk_checked h ha hidx rfl (m.inserted (newAttribute nextPtr attr alarmed i)).devName
  unfold MultiAttr.addAttribute
  simp only [hi,Option.bind_some,hattr]
  change DeviceOk _ _ (match (m.inserted (newAttribute nextPtr attr alarmed i)).checkAssociated
      (m.insertAttr (newAttribute nextPtr attr alarmed i)).2
      (m.inserted (newAttribute nextPtr attr alarmed i)).devName with
    | .error e => (m.inserted (newAttribute nextPtr attr alarmed i),some e)
    | .ok m => (m,none)).1
  generalize (m.inserted (newAttribute nextPtr attr alarmed i)).checkAssociated
    (m.insertAttr (newAttribute nextPtr attr alarmed i)).2
    (m.inserted (newAttribute nextPtr attr alarmed i)).devName = r at hc ⊢
  cases r with
  | error e => exact hc
  | ok m' => exact hc

end Add

section Steady

/-- The request is not refused before the device's tables change. -/
def inserts (w : World) (m : MultiAttr) (newAttr : Attr) : Bool :=
  (m.getAttrByName newAttr.name).toOption.isNone &&
    ((w.classList.findIdx? (fun a => a.name = newAttr.name ∧ a.clName = newAttr.clName)).bind
      (fun i => w.classList[i]?)).all
        (sameDefinition newAttr.dataType newAttr.dataFormat newAttr.writable)

/-- The entry of the class list that the new attribute is made from. -/
def made (w : World) (newAttr : Attr) : Attr :=
  (getAttr (w.classList ++ [newAttr]) newAttr.name).getD newAttr

/-- A READ_WITH_WRITE attribute is added after its associated one or without it, and no attribute
waits for the new one. -/
def SteadyAdd (w : World) (m : MultiAttr) (newAttr : Attr) : Prop :=
  inserts w m newAttr = true →
    ((made w newAttr).writable = .readWithWrite →
      lowerName (made w newAttr).assocName ≠ lowerName newAttr.name ∧
      ∀ b ∈ m.defs, lowerName b.name = lowerName (made w newAttr).assocName →
        b.isWritable = true ∧ (made w newAttr).dataType = b.dataType) ∧
    ∀ x ∈ m.defs, x.writable = .readWithWrite → lowerName x.assocName ≠ lowerName newAttr.name

instance (w : World) (m : MultiAttr) (newAttr : Attr) : Decidable (SteadyAdd w m newAttr) :=
  inferInstanceAs (Decidable (_ = _ → _ ∧ _))

/-- State and Status stay, every READ_WITH_WRITE attribute keeps its associated one, and the entry
that leaves the class list is the one of the attribute. -/
def SteadyRemove (w : World) (m : MultiAttr) (remAttr : Attr) : Prop :=
  ∀ a ∈ m.attrList, lowerName a.name = lowerName remAttr.name →
    ¬ isStateOrStatus a.name ∧
    (∀ x ∈ m.defs, x.writable = .readWithWrite → lowerName x.name ≠ lowerName remAttr.name →
      ∃ b ∈ m.defs, lowerName b.name = lowerName x.assocName ∧ lowerName b.name ≠ lowerName remAttr.name) ∧
    (updateIdx w remAttr = true →
      (w.classList.findIdx? (isEntry remAttr.name remAttr.clName)).map Int.ofNat = some a.attrIdx)

instance (w : World) (m : MultiAttr) (remAttr : Attr) : Decidable (SteadyRemove w m remAttr) :=
  inferInstanceAs (Decidable (∀ a ∈ m.attrList, _ → _ ∧ _ ∧ _))

def Steady (w : World) (r : Request) : Prop :=
  match r with
  | .add dev newAttr _ => ∀ m ∈ w.devices[dev]?, SteadyAdd w m newAttr
  | .remove dev remAttr => ∀ m ∈ w.devices[dev]?, SteadyRemove w m remAttr

instance (w : World) (r : Request) : Decidable (Steady w r) :=
  match r with
  | .add dev newAttr _ => inferInstanceAs (Decidable (∀ m ∈ w.devices[dev]?, SteadyAdd w m newAttr))
  | .remove dev remAttr => inferInstanceAs (Decidable (∀ m ∈ w.devices[dev]?, SteadyRemove w m remAttr))

/-- All tables of all devices. -/
def Consistent (w : World) : Prop := ∀ m ∈ w.devices, DeviceOk w.classList w.nextPtr m

end Steady

section AddStep
variable {w : World} {dev : Nat} {m : MultiAttr} {newAttr : Attr} {alarmed : Bool}

theorem hasAssoc_iff {a : AttrDef} :
    a.hasAssoc = true ↔ a.writable = .readWithWrite ∨ a.writable = .readWrite := by
  simp [AttrDef.hasAssoc]

theorem welcome_of_steady {classList : List Attr} {nextPtr : Nat} (h : DeviceOk classList nextPtr m)
    {attr : Attr} (hn : lowerName attr.name = lowerName newAttr.name)
    (habs : ∀ d ∈ m.defs, lowerName d.name ≠ lowerName newAttr.name)
    (hs2 : attr.writable = .readWithWrite → lowerName attr.assocName ≠ lowerName newAttr.name ∧
      ∀ b ∈ m.defs, lowerName b.name = lowerName attr.assocName →
        b.isWritable = true ∧ attr.dataType = b.dataType)
    (hs3 : ∀ x ∈ m.defs, x.writable = .readWithWrite → lowerName x.assocName ≠ lowerName newAttr.name)
    (alarmed : Bool) (i : Nat) : Welcome m (newAttribute nextPtr attr alarmed i) := by
  have habs' : ∀ d ∈ m.defs, lowerName d.name ≠ lowerName attr.name := by
    rw [hn]
    exact habs
  refine ⟨⟨habs',?_,?_⟩,?_,?_⟩
  · intro d hd he
    have := h.fresh d hd
    simp only [newAttribute] at he
    omega
  · intro hw
    have hw' : attr.writable = .readWrite := hw
    simp [newAttribute,Attr.assoc,hw']
  · intro hha b hb hbn
    have hkind : attr.writable = .readWithWrite ∨ attr.writable = .readWrite := hasAssoc_iff.mp hha
    rcases (defs_inserted h.toShape _).mp hb with rfl | hb
    · rcases hkind with hw | hw
      · have hne := (hs2 hw).1
        simp only [newAttribute,Attr.assoc,hw] at hbn
        exact absurd (hbn.symm.trans hn) hne
      · exact ⟨by simp [AttrDef.isWritable,newAttribute,hw],rfl⟩
    · rcases hkind with hw | hw
      · simp only [newAttribute,Attr.assoc,hw] at hbn
        exact (hs2 hw).2 b hb hbn
      · simp only [newAttribute,Attr.assoc,hw,if_true] at hbn
        exact absurd hbn (habs' b hb)
  · intro x hx hha he
    have he' : lowerName newAttr.name = lowerName x.assocName := hn.symm.trans he
    rcases hasAssoc_iff.mp hha with hw | hw
    · exact hs3 x hx hw he'.symm
    · rw [h.own x hx hw] at he'
      exact habs x hx he'.symm

theorem consistent_setDev {w : World} {classList : List Attr} {nextPtr : Nat} {dev : Nat} {m' : MultiAttr}
    (h : ∀ m ∈ w.devices, DeviceOk classList nextPtr m) (hm : DeviceOk classList nextPtr m') :
    ∀ m ∈ (w.setDev dev m').devices, DeviceOk classList nextPtr m := by
  intro x hx
  rcases List.mem_or_eq_of_mem_set hx with hx | rfl
  · exact h x hx
  · exact hm

theorem made_of_found {classList : List Attr} {i : Nat} {e : Attr} (hi : classList[i]? = some e)
    (hn : e.name = newAttr.name) :
    ∃ attr, getAttr classList newAttr.name = some attr ∧
      getAttr (classList ++ [newAttr]) newAttr.name = some attr := by
  have hsome : (getAttr classList newAttr.name).isSome = true := by
    unfold getAttr
    rw [List.find?_isSome]
    exact ⟨e,List.mem_of_getElem? hi,by simp [hn]⟩
  obtain ⟨attr,ha⟩ := Option.isSome_iff_exists.mp hsome
  refine ⟨attr,ha,?_⟩
  unfold getAttr at ha ⊢
  rw [List.find?_append,ha]
  rfl

theorem made_of_new (classList : List Attr) (newAttr : Attr) :
    ∃ attr, getAttr (classList ++ [newAttr]) newAttr.name = some attr := by
  have hsome : (getAttr (classList ++ [newAttr]) newAttr.name).isSome = true := by
    unfold getAttr
    rw [List.find?_isSome]
    exact ⟨newAttr,by simp,by simp⟩
  exact Option.isSome_iff_exists.mp hsome

theorem consistent_add (h : Consistent w) (hm : w.devices[dev]? = some m)
    (hs : SteadyAdd w m newAttr) : Consistent (addAttribute w dev m newAttr alarmed).1 := by
  have hdev := h m (List.mem_of_getElem? hm)
  have hmade : ∀ {attr : Attr}, getAttr (w.classList ++ [newAttr]) newAttr.name = some attr →
      made w newAttr = attr := by
    intro attr ha
    unfold made
    rw [ha]
    rfl
  unfold addAttribute
  split
  next alAttr _ =>
    split <;> exact h
  next err hget =>
    have habs := getAttrByName_error hdev.toTabled hget
    have hins : inserts w m newAttr = ((w.classList.findIdx?
        (fun a => a.name = newAttr.name ∧ a.clName = newAttr.clName)).bind
          (fun i => w.classList[i]?)).all
            (sameDefinition newAttr.dataType newAttr.dataFormat newAttr.writable) := by
      unfold inserts
      rw [hget]
      rfl
    split
    next i hfind =>
      split
      · exact h
      next e he =>
        split
        next hsame =>
          have hen : e.name = newAttr.name := by
            obtain ⟨hlt,hp,-⟩ := List.findIdx?_eq_some_iff_getElem.mp hfind
            rw [List.getElem?_eq_getElem hlt,Option.some.injEq] at he
            rw [he] at hp
            exact (of_decide_eq_true hp).1
          obtain ⟨attr,ha,ha'⟩ := made_of_found he hen
          have hst := hs (by rw [hins,hfind]; simpa [he] using hsame)
          rw [hmade ha'] at hst
          have hw := welcome_of_steady hdev (getAttr_some ha) habs hst.1 hst.2 alarmed i
          apply consistent_setDev
          · intro x hx
            exact (h x hx).later (Nat.le_succ _)
          · exact deviceOk_addAttribute hdev he (by rw [hen,ha]) hw
        · exact h
    next hfind =>
      obtain ⟨attr,ha⟩ := made_of_new w.classList newAttr
      have hst := hs (by rw [hins,hfind]; rfl)
      rw [hmade ha] at hst
      have hw := welcome_of_steady hdev (getAttr_some ha) habs hst.1 hst.2 alarmed w.classList.length
      apply consistent_setDev
      · intro x hx
        exact ((h x hx).grow [newAttr]).later (Nat.le_succ _)
      · exact deviceOk_addAttribute (hdev.grow [newAttr]) (by simp) ha hw

end AddStep

section RemoveStep
variable {classList : List Attr} {nextPtr : Nat} {m : MultiAttr} {q : Nat}

theorem alike_shiftOwn (m : MultiAttr) (oldIdx : Int) : Alike m (m.shiftOwn oldIdx) := by
  refine ⟨?_,rfl,rfl,rfl⟩
  unfold MultiAttr.defs MultiAttr.shiftOwn
  rw [List.map_map]
  rfl

/-- A device whose attributes all have other entries than the one that leaves the class list. -/
theorem deviceOk_shift (h : DeviceOk classList nextPtr m) (hq : ∀ x ∈ m.attrList, x.attrIdx ≠ (q : Int)) :
    DeviceOk (classList.eraseIdx q) nextPtr (m.shiftOwn q) := by
  have hal := alike_shiftOwn m q
  refine ⟨h.toShape.of_alike hal,?_,?_,?_,?_⟩
  · intro i x hx ha j b hj hn
    unfold MultiAttr.shiftOwn at hx
    rw [List.getElem?_map,Option.map_eq_some_iff] at hx
    obtain ⟨y,hy,rfl⟩ := hx
    rw [hal.defs] at hj
    exact h.assoc i y hy ha j b hj hn
  · rw [hal.defs]
    exact h.fitting
  · intro x hx
    obtain ⟨y,hy,rfl⟩ := List.mem_map.mp hx
    exact (h.idx y hy).shift (hq y hy)
  · rw [hal.defs]
    exact h.fresh

/-- Leaving out State and Status makes no difference: they have no index in the class list. -/
theorem shiftOther_eq (h : DeviceOk classList nextPtr m) (q : Nat) : m.shiftOther q = m.shiftOwn q := by
  obtain ⟨F,S,T,he,hS,hT⟩ := split_ends h.toShape
  have hlen : m.attrList.length - 2 = F.length := by
    rw [he]
    simp
  have hs := (h.idx S (by rw [he]; simp)).1 (Or.inl hS.1)
  have ht := (h.idx T (by rw [he]; simp)).1 (Or.inr hT.1)
  unfold MultiAttr.shiftOther MultiAttr.shiftOwn
  rw [hlen,he]
  simp [shiftIdx_end hs,shiftIdx_end ht]

/-- The device after a removal that leaves every READ_WITH_WRITE attribute its associated one. -/
theorem deviceOk_removed (h : DeviceOk classList nextPtr m) {i : Nat} {a : Attribute}
    (hi : m.attrList[i]? = some a) (hend : ¬ isStateOrStatus a.name)
    (hleft : ∀ x ∈ m.defs, x.writable = .readWithWrite → lowerName x.name ≠ lowerName a.name →
      ∃ b ∈ m.defs, lowerName b.name = lowerName x.assocName ∧ lowerName b.name ≠ lowerName a.name)
    {m₁ : MultiAttr} (hd : m₁.defs = m.defs.eraseIdx i)
    (hm : m₁.attrMap = (m.eraseAttr i a.toAttrDef).attrMap) {classList' : List Attr}
    (hidx : ∀ x ∈ m₁.attrList, Indexed classList' x) :
    ∃ m', m₁.rebuildKinds.checkAll "a/b/c" (List.range m₁.rebuildKinds.attrList.length) = (m',none) ∧
      DeviceOk classList' nextPtr m' := by
  have hdi : m.defs[i]? = some a.toAttrDef := by
    rw [defs_get,hi]
    rfl
  have hshape := shape_erased h.toShape hi (not_or.mp hend) hd hm
  have hdefs : m₁.rebuildKinds.defs = m.defs.eraseIdx i := hd
  have hsub : ∀ x ∈ m₁.rebuildKinds.defs, x ∈ m.defs := by
    intro x hx
    rw [hdefs] at hx
    exact List.mem_of_mem_eraseIdx hx
  have hfits : ∀ x ∈ m₁.rebuildKinds.defs, x.hasAssoc = true → Fits m₁.rebuildKinds.defs x := by
    intro x hx ha
    rcases hasAssoc_iff.mp ha with hw | hw
    · have hne : lowerName x.name ≠ lowerName a.name := by
        rw [hdefs] at hx
        obtain ⟨j,hji,hj⟩ := List.mem_eraseIdx_iff_getElem?.mp hx
        intro he
        exact hji (same_place h.names hj hdi he)
      obtain ⟨b,hb,hbn,hba⟩ := hleft x (hsub x hx) hw hne
      obtain ⟨hbw,hbt⟩ := h.fitting x (hsub x hx) ha b hb hbn
      obtain ⟨j,hj⟩ := List.mem_iff_getElem?.mp hb
      have hji : j ≠ i := by
        rintro rfl
        rw [hdi,Option.some.injEq] at hj
        exact hba (by rw [← hj])
      refine ⟨b,?_,hbn,hbw,hbt⟩
      rw [hdefs]
      exact List.mem_eraseIdx_iff_getElem?.mpr ⟨j,hji,hj⟩
    · exact ⟨x,hx,by rw [h.own x (hsub x hx) hw],by simp [AttrDef.isWritable,hw],rfl⟩
  obtain ⟨m',he,hsame,hall⟩ := checkAll_range hshape.toTabled hfits "a/b/c"
  refine ⟨m',he,hshape.of_alike hsame.toAlike,hall,?_,indexed_same hsame hidx,?_⟩
  · rw [hsame.defs]
    intro x hx ha b hb
    exact h.fitting x (hsub x hx) ha b (hsub b hb)
  · rw [hsame.defs]
    intro x hx
    exact h.fresh x (hsub x hx)

/-- A device with an attribute for the entry keeps it alive. -/
theorem isException_false (h : DeviceOk classList nextPtr m) {x : Attribute} (hx : x ∈ m.attrList)
    (hq : x.attrIdx = (q : Int)) {e remAttr : Attr} (he : classList[q]? = some e)
    (hen : isEntry remAttr.name remAttr.clName e = true) : isException classList remAttr m = false := by
  obtain ⟨hn,hc⟩ : lowerName e.name = lowerName remAttr.name ∧ e.clName = remAttr.clName := by
    simpa [isEntry] using hen
  have hnot : ¬ isStateOrStatus x.name := by
    intro hend
    have := (h.idx x hx).1 hend
    omega
  obtain ⟨k,e',hk,he',hxn⟩ := (h.idx x hx).2 hnot
  have hkq : k = q := by omega
  rw [hkq,he,Option.some.injEq] at he'
  obtain ⟨i,hi⟩ := List.mem_iff_getElem?.mp hx
  have hxr : lowerName x.name = lowerName remAttr.name := by rw [← hxn,← he',hn]
  unfold isException
  rw [getAttrByName_of h.toTabled hi hxr]
  simp only [hq,Int.natCast_nonneg,if_true,Int.toNat_natCast,he,hc]
  simp

theorem filter_two {α : Type} {p : α → Bool} {l : List α} {i j : Nat} {x y : α} (hij : j ≠ i)
    (hx : l[i]? = some x) (hy : l[j]? = some y) (hpx : p x = false) (hpy : p y = false) :
    (l.filter p).length + 2 ≤ l.length := by
  have hsplit := List.getElem?_eq_some_iff.mp hx
  obtain ⟨hlt,hxe⟩ := hsplit
  have herase : (l.eraseIdx i).filter p = l.filter p := by
    have hl : l = l.take i ++ x :: l.drop (i + 1) := by
      rw [← hxe,List.getElem_cons_drop,List.take_append_drop]
    rw [List.eraseIdx_eq_take_drop_succ]
    nth_rewrite 3 [hl]
    rw [List.filter_append,List.filter_append,List.filter_cons_of_neg (by simp [hpx])]
  have hmem : y ∈ l.eraseIdx i := List.mem_eraseIdx_iff_getElem?.mpr ⟨j,hij,hy⟩
  have hless : ((l.eraseIdx i).filter p).length < (l.eraseIdx i).length := by
    rw [List.length_filter_lt_length_iff_exists]
    exact ⟨y,hmem,by simp [hpy]⟩
  rw [herase,List.length_eraseIdx_of_lt hlt] at hless
  omega

variable {w : World} {dev : Nat} {remAttr : Attr}

/-- When the entry leaves the class list, no other device has an attribute for it. -/
theorem other_entries (h : Consistent w) (hm : w.devices[dev]? = some m) {a : Attribute}
    (ha : a ∈ m.attrList) (hq : a.attrIdx = (q : Int)) {e : Attr} (he : w.classList[q]? = some e)
    (hen : isEntry remAttr.name remAttr.clName e = true) (hup : updateIdx w remAttr = true) {j : Nat}
    (hj : j ≠ dev) {m₂ : MultiAttr} (hm₂ : w.devices[j]? = some m₂) :
    ∀ x ∈ m₂.attrList, x.attrIdx ≠ (q : Int) := by
  intro x hx hxq
  have h1 := isException_false (h m (List.mem_of_getElem? hm)) ha hq he hen
  have h2 := isException_false (h m₂ (List.mem_of_getElem? hm₂)) hx hxq he hen
  have htwo := filter_two hj hm hm₂ h1 h2
  unfold updateIdx at hup
  rw [Bool.or_eq_true,decide_eq_true_eq,decide_eq_true_eq] at hup
  omega

/-- The other attributes of the device have other entries. -/
theorem own_entries (h : DeviceOk classList nextPtr m) {i : Nat} {a : Attribute}
    (hi : m.attrList[i]? = some a) (hend : ¬ isStateOrStatus a.name) (hq : a.attrIdx = (q : Int)) :
    ∀ x ∈ m.attrList.eraseIdx i, x.attrIdx ≠ (q : Int) := by
  intro x hx hxq
  obtain ⟨j,hji,hj⟩ := List.mem_eraseIdx_iff_getElem?.mp hx
  have hxm := List.mem_of_getElem? hj
  have hnot : ¬ isStateOrStatus x.name := by
    intro hxend
    have := (h.idx x hxm).1 hxend
    omega
  obtain ⟨k,e,hk,he,hn⟩ := (h.idx a (List.mem_of_getElem? hi)).2 hend
  obtain ⟨k',e',hk',he',hn'⟩ := (h.idx x hxm).2 hnot
  have hkk : k' = k := by omega
  rw [hkk,he,Option.some.injEq] at he'
  have hsame : lowerName x.name = lowerName a.name := by rw [← hn',← he',hn]
  apply hji
  apply same_place h.names _ _ hsame
  · rw [defs_get,hj]
    rfl
  · rw [defs_get,hi]
    rfl

theorem mem_set_cases {α : Type} {l : List α} {i : Nat} {x y : α} (h : x ∈ l.set i y) :
    x = y ∨ ∃ j, j ≠ i ∧ l[j]? = some x := by
  obtain ⟨j,hj⟩ := List.mem_iff_getElem?.mp h
  by_cases hji : j = i
  · subst hji
    rw [List.getElem?_set_self' ] at hj
    cases hl : l[j]? with
    | none =>
      rw [hl] at hj
      cases hj
    | some z =>
      rw [hl] at hj
      cases hj
      exact Or.inl rfl
  · rw [List.getElem?_set_ne (Ne.symm hji)] at hj
    exact Or.inr ⟨j,hji,hj⟩

theorem consistent_remove (h : Consistent w) (hm : w.devices[dev]? = some m)
    (hs : SteadyRemove w m remAttr) : Consistent (removeAttribute w dev m remAttr).1 := by
  have hdev := h m (List.mem_of_getElem? hm)
  unfold removeAttribute
  split
  · exact h
  next a hget =>
    obtain ⟨i,hi,hn⟩ := getAttrByName_ok hdev.toTabled hget
    have ha := List.mem_of_getElem? hi
    obtain ⟨hend,hleft,hentry⟩ := hs a ha hn
    rw [← hn] at hleft
    have hdi : m.defs[i]? = some a.toAttrDef := by
      rw [defs_get,hi]
      rfl
    have hind := getAttrIndByName_of hdev.toTabled hdi hn
    have hat := at_of hi
    split
    next hup =>
      obtain ⟨q,hfind,hqa⟩ := Option.map_eq_some_iff.mp (hentry hup)
      have hq : a.attrIdx = (q : Int) := hqa.symm
      have hcl : removeAttr w.classList remAttr.name remAttr.clName = w.classList.eraseIdx q := by
        unfold removeAttr
        rw [List.eraseP_eq_eraseIdx,hfind]
      obtain ⟨hlt,hen,-⟩ := List.findIdx?_eq_some_iff_getElem.mp hfind
      have he : w.classList[q]? = some w.classList[q] := List.getElem?_eq_getElem hlt
      have hown : ∀ x ∈ ((m.eraseAttr i a.toAttrDef).shiftOwn a.attrIdx).attrList,
          Indexed (w.classList.eraseIdx q) x := by
        intro x hx
        rw [hq] at hx
        obtain ⟨y,hy,rfl⟩ := List.mem_map.mp hx
        have hym : y ∈ m.attrList := List.mem_of_mem_eraseIdx hy
        exact (hdev.idx y hym).shift (own_entries hdev hi hend hq y hy)
      have hdefs : ((m.eraseAttr i a.toAttrDef).shiftOwn a.attrIdx).defs = m.defs.eraseIdx i :=
        (alike_shiftOwn _ _).defs.trans (eraseAttr_defs m i a.toAttrDef)
      obtain ⟨m',hc,hok⟩ := deviceOk_removed hdev hi hend hleft hdefs rfl hown
      unfold removeFromDevice
      simp only [hind,hat,Int.toNat_natCast,if_true,hc,hcl]
      intro x hx
      rcases mem_set_cases hx with rfl | ⟨j,hj,hxj⟩
      · exact hok
      · rw [List.getElem?_map,Option.map_eq_some_iff] at hxj
        obtain ⟨m₂,hm₂,rfl⟩ := hxj
        have hok₂ := h m₂ (List.mem_of_getElem? hm₂)
        rw [hq,shiftOther_eq hok₂]
        exact deviceOk_shift hok₂ (other_entries h hm ha hq he hen hup hj hm₂)
    · have hown : ∀ x ∈ (m.eraseAttr i a.toAttrDef).attrList, Indexed w.classList x := by
        intro x hx
        exact hdev.idx x (List.mem_of_mem_eraseIdx hx)
      obtain ⟨m',hc,hok⟩ := deviceOk_removed hdev hi hend hleft (eraseAttr_defs m i a.toAttrDef) rfl hown
      unfold removeFromDevice
      simp only [hind,hat,Int.toNat_natCast,Bool.false_eq_true,if_false,hc]
      exact consistent_setDev h hok

end RemoveStep

section Runs
variable {w : World}

/-- A request that meets its condition keeps all tables. -/
theorem consistent_step (h : Consistent w) {r : Request} (hs : Steady w r) : Consistent (step w r).1 := by
  cases r with
  | add dev newAttr alarmed =>
    cases hm : w.devices[dev]? with
    | none => simpa only [step,hm] using h
    | some m =>
      simp only [step,hm]
      exact consistent_add h hm (hs m hm)
  | remove dev remAttr =>
    cases hm : w.devices[dev]? with
    | none => simpa only [step,hm] using h
    | some m =>
      simp only [step,hm]
      exact consistent_remove h hm (hs m hm)

/-- Every request of a sequence meets its condition in the state it finds. -/
def SteadyRun (w : World) : List Request → Prop
  | [] => True
  | r::rs => Steady w r ∧ SteadyRun (step w r).1 rs

instance decSteadyRun : ∀ (w : World) (rs : List Request), Decidable (SteadyRun w rs)
  | _,[] => isTrue trivial
  | w,r::rs => @instDecidableAnd (Steady w r) (SteadyRun (step w r).1 rs) _ (decSteadyRun _ rs)

theorem consistent_run (h : Consistent w) {rs : List Request} (hs : SteadyRun w rs) :
    Consistent (run w rs) := by
  induction rs generalizing w with
  | nil => exact h
  | cons r rs ih =>
    obtain ⟨hr,hrs⟩ := hs
    exact ih (consistent_step h hr) hrs

theorem steadyRun_take {rs : List Request} (hs : SteadyRun w rs) (n : Nat) : SteadyRun w (rs.take n) := by
  induction rs generalizing w n with
  | nil =>
    rw [List.take_nil]
    trivial
  | cons r rs ih =>
    cases n with
    | zero => trivial
    | succ n => exact ⟨hs.1,ih hs.2 n⟩

end Runs

end CppTango.Device.Dynamic
