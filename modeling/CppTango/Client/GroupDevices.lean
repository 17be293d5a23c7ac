import CppTango.Client.GroupForest

namespace CppTango.Client.Group
open CppTango.Device (lowerName)

section Devices
variable {h h' : Heap}

/-- The elements that there were have kept their names and parents. -/
structure Agree (h h' : Heap) : Prop where
  next : h.next ≤ h'.next
  parent : ∀ i, i < h.next → h'.parent i = h.parent i
  name : ∀ i, i < h.next → h'.name i = h.name i

theorem qualifiedName_agree (hf : Forest h) (ha : Agree h h') (f i : Nat) (hi : i < h.next) :
    qualifiedName h' f i = qualifiedName h f i := by
  induction f generalizing i with
  | zero => rfl
  | succ f ih =>
    rw [qualifiedName,qualifiedName,ha.parent i hi,ha.name i hi]
    cases hp : h.parent i with
    | none => rfl
    | some p =>
      dsimp only
      rw [ih p (hf.parent_inside hp)]

theorem qualifiedName_more {f k i : Nat} {s : List Char} (hs : qualifiedName h f i = some s) :
    qualifiedName h (f + k) i = some s := by
  induction f generalizing i s with
  | zero => cases hs
  | succ f ih =>
    rw [Nat.add_right_comm,qualifiedName]
    rw [qualifiedName] at hs
    cases hp : h.parent i with
    | none =>
      rw [hp] at hs
      exact hs
    | some p =>
      rw [hp] at hs
      dsimp only at hs ⊢
      obtain ⟨t,ht,rfl⟩ := Option.map_eq_some_iff.mp hs
      rw [ih ht]
      rfl

theorem nameEquals_agree (hf : Forest h) (ha : Agree h h') (n : String) {i : Nat} (hi : i < h.next) :
    nameEquals h' n i = nameEquals h n i := by
  obtain ⟨s,hs⟩ := fullyQualifiedName_ends hf i
  have hs' : getFullyQualifiedName h' i = some s := by
    have hfuel : h'.fuel = h.fuel + (h'.next - h.next) := by
      have := ha.next
      unfold Heap.fuel
      omega
    unfold getFullyQualifiedName at hs ⊢
    rw [qualifiedName_agree hf ha h'.fuel i hi,hfuel]
    exact qualifiedName_more hs
  unfold nameEquals
  rw [hs,hs',ha.name i hi]

theorem deviceList_more {f k i : Nat} {fwd : Bool} {l : List String}
    (hl : deviceList h f fwd i = some l) : deviceList h (f + k) fwd i = some l := by
  induction f generalizing i l with
  | zero => cases hl
  | succ f ih =>
    rw [Nat.add_right_comm,deviceList]
    rw [deviceList] at hl
    apply Lib.gather_mono ?_ hl
    intro e _ xs hxs
    split at hxs
    next hg =>
      rw [if_pos hg]
      split at hxs
      next hfwd =>
        rw [if_pos hfwd]
        exact ih hxs
      next hfwd => rwa [if_neg hfwd]
    next hg => rwa [if_neg hg]

/-- The list of a group does not depend on the groups that are not under it. -/
theorem deviceList_same {P : Nat → Prop} (helems : ∀ i, P i → h'.elements i = h.elements i)
    (hin : ∀ i, P i → ∀ j ∈ h.elements i,
      P j ∧ h'.name j = h.name j ∧ h'.isGroup j = h.isGroup j)
    (f : Nat) (fwd : Bool) (i : Nat) (hi : P i) : deviceList h' f fwd i = deviceList h f fwd i := by
  induction f generalizing i with
  | zero => rfl
  | succ f ih =>
    rw [deviceList,deviceList,helems i hi]
    apply Lib.gather_congr
    intro e hm
    obtain ⟨he,hname,hgroup⟩ := hin i hi e hm
    rw [hname,hgroup,ih e he]

/-- A name without a star that is not found is not the name of a device. -/
theorem not_listed_of_find {rank : Nat → Nat} {k : Nat} (hf : Forest h) (hr : Ranked rank k h)
    {n : String} (hn : isPattern n = false) (f : Nat) (i : Nat) (hi : k < f + rank i)
    (hg : h.isGroup i = true) (hnone : find h n f true i = some none) {l : List String}
    (hl : deviceList h f true i = some l) : lowerName n ∉ l.map lowerName := by
  induction f generalizing i l with
  | zero => cases hl
  | succ f ih =>
    obtain ⟨r,hfound⟩ := find_ends hf hr n (f + 1) true i hi
    cases hnone.symm.trans hfound.returns
    intro hm
    obtain ⟨x,hx,hxn⟩ := List.mem_map.mp hm
    rw [deviceList] at hl
    obtain ⟨e,he,xs,hxs,hxe⟩ := (Lib.mem_gather hl).mp hx
    cases hge : h.isGroup e with
    | true =>
      rw [hge,if_pos rfl,if_pos rfl] at hxs
      have hlt := hr.element hf he
      apply ih e (by omega) hge (hfound.forward rfl hg rfl e he) hxs
      exact List.mem_map.mpr ⟨x,hxe,hxn⟩
    | false =>
      rw [hge,if_neg Bool.false_ne_true,Option.some.injEq] at hxs
      rw [← hxs,List.mem_singleton] at hxe
      have hsuits := hfound.here rfl hg e he
      unfold suits at hsuits
      rw [hn,if_neg Bool.false_ne_true] at hsuits
      unfold nameEquals at hsuits
      obtain ⟨s,-,hs⟩ := Option.map_eq_some_iff.mp hsuits
      rw [hxe] at hxn
      rw [hxn] at hs
      simp at hs

end Devices

section Added
variable {h : Heap}

theorem Forest.free (hf : Forest h) : h.cells h.next = none := by
  by_contra hn
  exact Nat.lt_irrefl _ (hf.inside h.next hn)

theorem Forest.element_inside (hf : Forest h) {i j : Nat} (hm : j ∈ h.elements i) : j < h.next :=
  hf.inside j (live_of_parent ((hf.child i j).mp hm))

/-- An element that nobody refers to changes no list. -/
structure Alike (h h' : Heap) : Prop where
  next : h'.next = h.next + 1
  parent : h'.parent = h.parent
  elements : h'.elements = h.elements
  isGroup : h'.isGroup = h.isGroup
  name : ∀ i, i ≠ h.next → h'.name i = h.name i
  live : ∀ i, i ≠ h.next → h'.cells i = h.cells i

theorem alike_alloc (hf : Forest h) (n : String) : Alike h (h.alloc n) := by
  have hfree := hf.free
  have hcell : ∀ i, i ≠ h.next → (h.alloc n).cells i = h.cells i :=
    fun i hi => Function.update_of_ne hi _ _
  have hself : (h.alloc n).cells h.next = some ⟨n,none,none⟩ := Function.update_self ..
  constructor
  · rfl
  · funext i
    unfold Heap.parent
    by_cases hi : i = h.next
    · rw [hi,hself,hfree]
      rfl
    · rw [hcell i hi]
  · funext i
    unfold Heap.elements
    by_cases hi : i = h.next
    · rw [hi,hself,hfree]
      rfl
    · rw [hcell i hi]
  · funext i
    unfold Heap.isGroup
    by_cases hi : i = h.next
    · rw [hi,hself,hfree]
      rfl
    · rw [hcell i hi]
  · intro i hi
    unfold Heap.name
    rw [hcell i hi]
  · exact hcell

/-- The new element is deleted again. -/
theorem alike_deleted (hf : Forest h) (n : String) :
    Alike h { h.alloc n with cells := Function.update (h.alloc n).cells h.next none } := by
  have hcells : Function.update (h.alloc n).cells h.next none = h.cells := by
    unfold Heap.alloc
    dsimp only
    rw [Function.update_idem,← hf.free,Function.update_eq_self]
  rw [hcells]
  exact ⟨rfl,rfl,rfl,rfl,fun _ _ => rfl,fun _ _ => rfl⟩

theorem Alike.forest {h' : Heap} (ha : Alike h h') (hf : Forest h) : Forest h' where
  inside i hi := by
    rw [ha.next]
    by_cases he : i = h.next
    · omega
    · rw [ha.live i he] at hi
      exact Nat.lt_succ_of_lt (hf.inside i hi)
  child i j := by
    rw [ha.elements,ha.parent]
    exact hf.child i j
  once i := by
    rw [ha.elements]
    exact hf.once i
  acyclic := by
    rw [ha.parent]
    exact hf.acyclic

theorem Alike.agree {h' : Heap} (ha : Alike h h') : Agree h h' where
  next := by
    rw [ha.next]
    exact Nat.le_succ _
  parent i _ := by rw [ha.parent]
  name i hi := ha.name i (Nat.ne_of_lt hi)

theorem Alike.deviceList {h' : Heap} (ha : Alike h h') (hf : Forest h) (f : Nat) (fwd : Bool)
    (i : Nat) : deviceList h' f fwd i = deviceList h f fwd i := by
  apply deviceList_same (P := fun _ => True)
  · intro i _
    rw [ha.elements]
  · intro i _ j hm
    exact ⟨trivial,ha.name j (Nat.ne_of_lt (hf.element_inside hm)),by rw [ha.isGroup]⟩
  · trivial

/-- What adding one device does. -/
structure AddsOne (h : Heap) (this : Nat) (n : String) (l : List String) (h' : Heap)
    (l' : List String) : Prop where
  returns : addOne h this n = some h'
  forest : Forest h'
  agree : Agree h h'
  isGroup : h'.isGroup this = true
  after : getDeviceList h' this true = some l'
  list : l' = l ∨ l' = l ++ [n]
  fresh : l' ≠ l → nameEquals h n this = some false → lowerName n ∉ l.map lowerName

/-- The new device is the last one of the group's list. -/
theorem deviceList_attach (hf : Forest h) {this : Nat} {n : String} {l : List String} {h' : Heap}
    (hl : getDeviceList h this true = some l) (hat : Attached (h.alloc n) this h.next h') :
    getDeviceList h' this true = some (l ++ [n]) := by
  have ha := alike_alloc hf n
  obtain ⟨rank,hr⟩ := hf.ranked
  have hfuel : h'.fuel = h.fuel + 1 := by
    unfold Heap.fuel
    rw [hat.next,ha.next]
  have helems : h'.elements this = h.elements this ++ [h.next] := by
    rw [hat.elements,Function.update_self,ha.elements]
  have hold : ∀ i j, j ∈ h.elements i → h'.name j = h.name j ∧ h'.isGroup j = h.isGroup j := by
    intro i j hm
    rw [hat.name,hat.isGroup,ha.isGroup]
    exact ⟨ha.name j (Nat.ne_of_lt (hf.element_inside hm)),rfl⟩
  have hdown : ∀ e ∈ h.elements this, deviceList h' h.fuel true e = deviceList h h.fuel true e := by
    intro e hm
    apply deviceList_same (P := fun i => rank this < rank i)
    · intro i hi
      have hne : i ≠ this := by
        rintro rfl
        omega
      rw [hat.elements,Function.update_of_ne hne,ha.elements]
    · intro i hi j hj
      have := hr.element hf hj
      exact ⟨by omega,hold i j hj⟩
    · exact hr.element hf hm
  unfold getDeviceList at hl ⊢
  rw [hfuel,deviceList,helems]
  apply Lib.gather_snoc
  · have hmore := deviceList_more (k := 1) hl
    rw [deviceList] at hmore
    rw [← hmore]
    apply Lib.gather_congr
    intro e hm
    obtain ⟨hname,hgroup⟩ := hold this e hm
    rw [hname,hgroup,hdown e hm]
  · have hdev : h'.isGroup h.next = false := by
      rw [hat.isGroup]
      unfold Heap.isGroup Heap.alloc
      dsimp only
      rw [Function.update_self]
      rfl
    have hname : h'.name h.next = n := by
      rw [hat.name]
      unfold Heap.name Heap.alloc
      dsimp only
      rw [Function.update_self]
      rfl
    rw [hdev,if_neg Bool.false_ne_true,hname]

theorem addOne_spec (hf : Forest h) {this : Nat} (hg : h.isGroup this = true) {n : String}
    (hn : isPattern n = false) {l : List String} (hl : getDeviceList h this true = some l) :
    ∃ h' l', AddsOne h this n l h' l' := by
  have ha := alike_alloc hf n
  have hF := ha.forest hf
  have hinside := hf.inside this (live_of_isGroup hg)
  have hne : h.next ≠ this := by omega
  have hname : (h.alloc n).name h.next = n := by
    unfold Heap.name Heap.alloc
    dsimp only
    rw [Function.update_self]
    rfl
  have hgF : (h.alloc n).isGroup this = true := by
    rw [ha.isGroup]
    exact hg
  obtain ⟨te,hte,haddI⟩ := addI_eq hF true hne
  rw [hname] at hte
  by_cases hknown : te.isSome ∧ te ≠ some this
  · have had := alike_deleted hf n
    refine ⟨_,l,?_,had.forest hf,had.agree,?_,?_,.inl rfl,fun hll => absurd rfl hll⟩
    · unfold addOne
      dsimp only
      rw [haddI,if_pos hknown]
      rfl
    · rw [had.isGroup]
      exact hg
    · unfold getDeviceList at hl ⊢
      rw [had.deviceList hf]
      exact deviceList_more hl
  · obtain ⟨rank,hr⟩ := hf.ranked
    have hrF : Ranked rank h.next (h.alloc n) := by
      refine ⟨?_,hr.most⟩
      rw [ha.parent]
      exact hr.up
    have hroot : (h.alloc n).parent h.next = none := by
      rw [ha.parent]
      unfold Heap.parent
      rw [hf.free]
      rfl
    have hnew : (h.alloc n).cells h.next ≠ none := by
      unfold Heap.alloc
      dsimp only
      rw [Function.update_self]
      exact fun hc => by cases hc
    have hat := attached_attach hgF hnew hne
    refine ⟨attach (h.alloc n) this h.next,l ++ [n],?_,?_,?_,?_,deviceList_attach hf hl hat,
      .inr rfl,?_⟩
    · unfold addOne
      dsimp only
      rw [haddI,if_neg hknown]
      rfl
    · apply forest_attached hF hat hroot
      intro hp
      rcases Relation.ReflTransGen.cases_tail hp with he | ⟨c,-,hc⟩
      · exact hne he
      · have hc : (h.alloc n).parent c = some h.next := hc
        rw [ha.parent] at hc
        exact Nat.lt_irrefl _ (hf.parent_inside hc)
    · constructor
      · rw [hat.next,ha.next]
        exact Nat.le_succ _
      · intro i hi
        rw [hat.parent,Function.update_of_ne (Nat.ne_of_lt hi),ha.parent]
      · intro i hi
        rw [hat.name]
        exact ha.name i (Nat.ne_of_lt hi)
    · rw [hat.isGroup]
      exact hgF
    · intro _ hown
      have hfound : te = none := by
        obtain ⟨r,hr'⟩ := find_ends hF hrF n (h.alloc n).fuel true this
          (by unfold Heap.fuel; rw [ha.next]; omega)
        cases te with
        | none => rfl
        | some t =>
          cases (hte : find _ _ _ _ _ = _).symm.trans hr'.returns
          have ht : t = this := by
            by_contra hne'
            exact hknown ⟨rfl,fun he => hne' (Option.some.inj he)⟩
          have hownF : nameEquals (h.alloc n) n this = some false := by
            rw [nameEquals_agree hf ha.agree n hinside]
            exact hown
          rcases hr'.below t rfl with ⟨-,hdev⟩ | ⟨-,hsuits⟩ | hlt
          · rw [hgF] at hdev
            cases hdev
          · unfold suits at hsuits
            rw [hn,if_neg Bool.false_ne_true,hownF] at hsuits
            cases hsuits
          · rw [ht] at hlt
            omega
      rw [hfound] at hte
      have hlF : deviceList (h.alloc n) (h.alloc n).fuel true this = some l := by
        rw [ha.deviceList hf]
        exact deviceList_more hl
      exact not_listed_of_find hF hrF hn _ this (by unfold Heap.fuel; rw [ha.next]; omega) hgF hte hlF

/-- A device name that is there once at most stays so. -/
def StaysOnce (l l' : List String) : Prop :=
  ∀ k, (l.map lowerName).count k ≤ 1 → (l'.map lowerName).count k ≤ 1

theorem forest_addDevices (hf : Forest h) {this : Nat} (hg : h.isGroup this = true)
    {names : List DeviceName} {l : List String} (hl : getDeviceList h this true = some l)
    (hc : AddsOnce h this names) :
    ∃ h' l', addDevices h this names = some h' ∧ Forest h' ∧
      getDeviceList h' this true = some l' ∧ StaysOnce l l' := by
  induction names generalizing h l with
  | nil => exact ⟨h,l,rfl,hf,hl,fun k hk => hk⟩
  | cons n names ih =>
    obtain ⟨h₁,l₁,ho⟩ := addOne_spec hf hg n.2 hl
    have hinside := hf.inside this (live_of_isGroup hg)
    have hnew : l₁ ≠ l → lowerName n.1 ∉ l.map lowerName := by
      intro hne
      rcases hc n List.mem_cons_self with hown | ⟨hlist,-⟩
      · exact ho.fresh hne hown
      · exact hlist l hl
    have honce : StaysOnce l l₁ := by
      intro k hk
      rcases ho.list with he | he
      · rwa [he]
      · by_cases hne : l₁ = l
        · rwa [hne]
        · have hn0 := List.count_eq_zero.mpr (hnew hne)
          rw [he,List.map_append,List.count_append,List.map_cons,List.map_nil]
          by_cases hkn : lowerName n.1 = k
          · rw [← hkn,hn0,List.count_singleton_self]
          · have h0 : List.count k [lowerName n.1] = 0 :=
              List.count_eq_zero.mpr (fun hm => hkn (List.mem_singleton.mp hm).symm)
            rw [h0]
            exact hk
    have hrest : AddsOnce h₁ this names := by
      intro m hm
      rcases hc m (List.mem_cons_of_mem n hm) with hown | ⟨hlist,hcount⟩
      · left
        rw [nameEquals_agree hf ho.agree m.1 hinside]
        exact hown
      · right
        rw [List.map_cons] at hcount
        have hpos : 0 < (names.map (fun n => lowerName n.1)).count (lowerName m.1) :=
          List.count_pos_iff.mpr (List.mem_map_of_mem hm)
        have hne : lowerName n.1 ≠ lowerName m.1 := by
          intro he
          rw [he,List.count_cons_self] at hcount
          omega
        rw [List.count_cons_of_ne hne] at hcount
        refine ⟨?_,hcount⟩
        intro l₂ hl₂
        cases (Option.mem_def.mp hl₂).symm.trans ho.after
        rcases ho.list with he | he
        · rw [he]
          exact hlist l hl
        · rw [he,List.map_append,List.mem_append]
          rintro (hmem | hmem)
          · exact hlist l hl hmem
          · exact hne (List.mem_singleton.mp hmem).symm
    obtain ⟨h',l',hadd,hf',hl',honce'⟩ := ih ho.forest ho.isGroup ho.after hrest
    refine ⟨h',l',?_,hf',hl',fun k hk => honce' k (honce k hk)⟩
    unfold addDevices at hadd ⊢
    rw [List.foldlM_cons,ho.returns]
    exact hadd

end Added

section Runs

theorem forest_start (names : List String) : Forest (start names) := by
  have hparent : ∀ i, (start names).parent i = none := by
    intro i
    unfold Heap.parent start
    dsimp only
    cases names[i]? <;> rfl
  have helems : ∀ i, (start names).elements i = [] := by
    intro i
    unfold Heap.elements start
    dsimp only
    cases names[i]? <;> rfl
  constructor
  · intro i hi
    by_contra hlt
    apply hi
    unfold start at hlt ⊢
    dsimp only at hlt ⊢
    rw [List.getElem?_eq_none (by omega)]
    rfl
  · intro i j
    rw [helems,hparent]
    exact iff_of_false List.not_mem_nil (fun hn => by cases hn)
  · intro i
    rw [helems]
    exact List.nodup_nil
  · intro i hc
    obtain ⟨j,hj,-⟩ := Relation.TransGen.head'_iff.mp hc
    have hj : (start names).parent i = some j := hj
    rw [hparent] at hj
    cases hj

/-- All operations so far came back. -/
def Standing (o : Option Heap) : Prop := ∃ h, o = some h ∧ Forest h

theorem standing_step {o : Option Heap} {op : Op} (h : Standing o) (hm : Meets o op) :
    Standing (step o op) := by
  obtain ⟨h,rfl,hf⟩ := h
  obtain ⟨hl,hc⟩ := hm h rfl
  cases op with
  | addGroup this g => exact forest_addGroup hf hl hc
  | addDevices this names =>
    obtain ⟨rank,hr⟩ := hf.ranked
    obtain ⟨l,hlist⟩ := deviceList_ends hf hr h.fuel true this (by unfold Heap.fuel; omega)
    obtain ⟨h',l',hadd,hf',-⟩ := forest_addDevices hf hl hlist hc
    exact ⟨h',hadd,hf'⟩
  | remove this p fwd => exact forest_remove hf this p fwd
  | removeAll this =>
    obtain ⟨h',he,hf',-⟩ := forest_removeList hf this (h.elements this)
    exact ⟨h',he,hf'⟩

/-- The hierarchy of groups stays a forest in which all walks end, and no device comes in twice. -/
theorem hierarchy_stays_forest (names : List String) (ops : List Op)
    (hr : Lib.Along step Meets (some (start names)) ops) :
    ∃ h, run (some (start names)) ops = some h ∧ Forest h ∧ Ends h ∧
      ∀ this devices, Meets (some h) (.addDevices this devices) →
        ∃ h' l l', step (some h) (.addDevices this devices) = some h' ∧
          getDeviceList h this true = some l ∧ getDeviceList h' this true = some l' ∧
          StaysOnce l l' := by
  have hstart : Standing (some (start names)) := ⟨_,rfl,forest_start names⟩
  have hinv : Standing (run (some (start names)) ops) := by
    apply Lib.along_inv ?_ hstart hr
    intro o op ho hm
    exact standing_step ho hm
  obtain ⟨h,hrun,hf⟩ := hinv
  refine ⟨h,hrun,hf,ends_of_forest hf,?_⟩
  intro this devices hm
  obtain ⟨hg,hc⟩ := hm h rfl
  obtain ⟨l,hl⟩ := (ends_of_forest hf this).2.1 true
  obtain ⟨h',l',hadd,-,hl',honce⟩ := forest_addDevices hf hg hl hc
  exact ⟨h',l,l',hadd,hl,hl',honce⟩

def motor (n : String) (h : isPattern n = false) : DeviceName := ⟨n,h⟩

/-- A group of two sub-groups, one of which is removed again. -/
def lineOps : List Op :=
  [.addGroup 0 (some 1),.addGroup 0 (some 2),.addDevices 1 [motor "sys/motor/1" (by decide)],
    .addDevices 0 [motor "SYS/Motor/1" (by decide),motor "sys/motor/2" (by decide)],
    .addGroup 1 (some 0),.remove 0 "vac*" true]

theorem hierarchy_of_line :
    ((run (some (start ["line","motors","vacuum"])) lineOps).bind (getDeviceList · 0 true)) =
      some ["sys/motor/1","sys/motor/2"] ∧
    ∃ h, run (some (start ["line","motors","vacuum"])) lineOps = some h ∧ Forest h ∧ Ends h ∧
      ∀ this devices, Meets (some h) (.addDevices this devices) →
        ∃ h' l l', step (some h) (.addDevices this devices) = some h' ∧
          getDeviceList h this true = some l ∧ getDeviceList h' this true = some l' ∧
          StaysOnce l l' :=
  ⟨by decide,hierarchy_stays_forest ["line","motors","vacuum"] lineOps (by decide)⟩

/-- Two sub-groups of one name: the root is added to the second one, because its name leads to the
first one. -/
def roundOps : List Op :=
  [.addGroup 0 (some 1),.addGroup 0 (some 2),.addGroup 1 (some 3),.addGroup 2 (some 4),
    .addGroup 4 (some 0)]

theorem root_under_itself :
    Lib.Along step (fun o op => ∀ h ∈ o, Legal h op)
      (some (start ["line","left","right","motors","motors"])) roundOps ∧
    ¬ ∃ h, run (some (start ["line","left","right","motors","motors"])) roundOps = some h ∧
      Forest h := by
  refine ⟨by decide,?_⟩
  rintro ⟨h,hr,hf⟩
  have hp : (run (some (start ["line","left","right","motors","motors"])) roundOps).map
      (fun h => (h.parent 0,h.parent 4,h.parent 2)) = some (some 4,some 2,some 0) := by decide
  rw [hr,Option.map_some,Option.some.injEq,Prod.mk.injEq,Prod.mk.injEq] at hp
  obtain ⟨h0,h4,h2⟩ := hp
  exact hf.acyclic 0 (.head h0 (.head h4 (.single h2)))

end Runs

end CppTango.Client.Group
