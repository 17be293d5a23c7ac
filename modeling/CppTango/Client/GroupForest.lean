import CppTango.Client.Group
import CppTango.Lib.Steps

namespace CppTango.Client.Group
open CppTango.Device (lowerName)

section Claim

/-- Every element is once in the list of its parent and in no other one, and no group is its own
ancestor. -/
structure Forest (h : Heap) : Prop where
  inside : ∀ i, h.cells i ≠ none → i < h.next
  child : ∀ i j, j ∈ h.elements i ↔ h.parent j = some i
  once : ∀ i, (h.elements i).Nodup
  acyclic : Lib.Acyclic h.parent

/-- The walks through the hierarchy come to an end. -/
def Ends (h : Heap) : Prop :=
  ∀ i, (∃ s, getFullyQualifiedName h i = some s) ∧
    (∀ fwd, ∃ l, getDeviceList h i fwd = some l) ∧ ∀ n fwd, ∃ r, findI h i n fwd = some r

inductive Op
  | addGroup (this : Nat) (g : Option Nat)
  | addDevices (this : Nat) (names : List DeviceName)
  | remove (this : Nat) (p : String) (fwd : Bool)
  | removeAll (this : Nat)

/-- An operation that does not come back leaves no hierarchy. -/
def step (h : Option Heap) (op : Op) : Option Heap :=
  h.bind (fun h => match op with
    | .addGroup this g => addGroup h this g
    | .addDevices this names => addDevices h this names
    | .remove this p fwd => remove h this p fwd
    | .removeAll this => removeAll h this)

def run (h : Option Heap) (ops : List Op) : Option Heap := ops.foldl step h

/-- The groups exist, and a group that is added has no parent. -/
def Legal (h : Heap) : Op → Prop
  | .addGroup this g => h.isGroup this = true ∧ ∀ e ∈ g, h.isGroup e = true ∧ h.parent e = none
  | .addDevices this _ | .remove this _ _ | .removeAll this => h.isGroup this = true

/-- The groups above an element. -/
def above (h : Heap) : Nat → Nat → List Nat
  | 0,_ => []
  | f+1,i =>
    match h.parent i with
    | none => []
    | some p => p :: above h f p

/-- A group is added under itself only when the name of the lower group leads to it from the upper
one, or when the lower one has an element with the name of the upper one. -/
def Refused (h : Heap) (this g : Nat) : Prop :=
  getGroupI h g (h.name this) = some (some this) ∨
    (findI h this (h.name g) false).join.any (· != this) = true

/-- A device has not the name of the group, or is new. -/
def AddsOnce (h : Heap) (this : Nat) (names : List DeviceName) : Prop :=
  ∀ n ∈ names, nameEquals h n.1 this = some false ∨
    (∀ l ∈ getDeviceList h this true, lowerName n.1 ∉ l.map lowerName) ∧
      (names.map (fun n => lowerName n.1)).count (lowerName n.1) = 1

def Fits (h : Heap) : Op → Prop
  | .addGroup this g => ∀ e ∈ g, e ∈ above h h.fuel this → Refused h this e
  | .addDevices this names => AddsOnce h this names
  | .remove _ _ _ | .removeAll _ => True

instance (h : Heap) : (op : Op) → Decidable (Legal h op)
  | .addGroup _ _ => inferInstanceAs (Decidable (_ ∧ _))
  | .addDevices _ _ | .remove _ _ _ | .removeAll _ => inferInstanceAs (Decidable (_ = _))

instance (h : Heap) (this g : Nat) : Decidable (Refused h this g) :=
  inferInstanceAs (Decidable (_ ∨ _))

instance (h : Heap) (this : Nat) (names : List DeviceName) : Decidable (AddsOnce h this names) :=
  List.decidableBAll _ _

instance (h : Heap) : (op : Op) → Decidable (Fits h op)
  | .addGroup this g =>
    inferInstanceAs (Decidable (∀ e ∈ g, e ∈ above h h.fuel this → Refused h this e))
  | .addDevices this names => inferInstanceAs (Decidable (AddsOnce h this names))
  | .remove _ _ _ | .removeAll _ => .isTrue trivial

/-- What an operation must meet in the hierarchy that is there. -/
def Meets (o : Option Heap) (op : Op) : Prop := ∀ h ∈ o, Legal h op ∧ Fits h op

instance (o : Option Heap) (op : Op) : Decidable (Meets o op) :=
  inferInstanceAs (Decidable (∀ h ∈ o, Legal h op ∧ Fits h op))

end Claim

section Ranked
variable {h : Heap} {rank : Nat → Nat}

/-- The rank of an element is higher than the one of its parent. -/
structure Ranked (rank : Nat → Nat) (n : Nat) (h : Heap) : Prop where
  up : ∀ j i, h.parent j = some i → rank i < rank j
  most : ∀ i, rank i ≤ n

theorem live_of_elements {i j : Nat} (hm : j ∈ h.elements i) : h.cells i ≠ none := by
  intro hn
  unfold Heap.elements at hm
  rw [hn] at hm
  cases hm

theorem live_of_parent {i j : Nat} (hp : h.parent j = some i) : h.cells j ≠ none := by
  intro hn
  unfold Heap.parent at hp
  rw [hn] at hp
  cases hp

theorem live_of_isGroup {i : Nat} (hg : h.isGroup i = true) : h.cells i ≠ none := by
  intro hn
  unfold Heap.isGroup at hg
  rw [hn] at hg
  cases hg

theorem isGroup_of_elements {i j : Nat} (hm : j ∈ h.elements i) : h.isGroup i = true := by
  unfold Heap.elements at hm
  unfold Heap.isGroup
  cases he : (h.cells i).bind (·.elements) with
  | none =>
    rw [he] at hm
    cases hm
  | some l => rfl

theorem Forest.parent_inside (hf : Forest h) {i j : Nat} (hp : h.parent j = some i) :
    i < h.next := by
  apply hf.inside
  exact live_of_elements ((hf.child i j).mpr hp)

theorem Forest.ranked (hf : Forest h) : ∃ rank, Ranked rank h.next h := by
  have hn : ∀ a b, h.parent a = some b → b ∈ Finset.range h.next :=
    fun a b hp => Finset.mem_range.mpr (hf.parent_inside hp)
  obtain ⟨rank,hup,hmost⟩ := Lib.exists_rank hf.acyclic hn
  rw [Finset.card_range] at hmost
  exact ⟨rank,hup,hmost⟩

/-- An element of a group has a higher rank. -/
theorem Ranked.element {n : Nat} (hr : Ranked rank n h) (hf : Forest h) {i j : Nat}
    (hm : j ∈ h.elements i) : rank i < rank j :=
  hr.up j i ((hf.child i j).mp hm)

theorem qualifiedName_ends {n : Nat} (hr : Ranked rank n h) (f i : Nat) (hi : rank i < f) :
    ∃ s, qualifiedName h f i = some s := by
  induction f generalizing i with
  | zero => omega
  | succ f ih =>
    rw [qualifiedName]
    cases hp : h.parent i with
    | none => exact ⟨_,rfl⟩
    | some p =>
      have := hr.up i p hp
      obtain ⟨s,hs⟩ := ih p (by omega)
      dsimp only
      rw [hs]
      exact ⟨_,rfl⟩

theorem fullyQualifiedName_ends (hf : Forest h) (i : Nat) :
    ∃ s, getFullyQualifiedName h i = some s := by
  obtain ⟨rank,hr⟩ := hf.ranked
  exact qualifiedName_ends hr h.fuel i (Nat.lt_succ_of_le (hr.most i))

theorem nameEquals_ends (hf : Forest h) (n : String) (i : Nat) : ∃ b, nameEquals h n i = some b := by
  obtain ⟨s,hs⟩ := fullyQualifiedName_ends hf i
  unfold nameEquals
  rw [hs]
  exact ⟨_,rfl⟩

theorem nameMatches_ends (hf : Forest h) (n : String) (i : Nat) : ∃ b, nameMatches h n i = some b := by
  obtain ⟨s,hs⟩ := fullyQualifiedName_ends hf i
  unfold nameMatches
  rw [hs]
  exact ⟨_,rfl⟩

theorem suits_ends (hf : Forest h) (n : String) (i : Nat) : ∃ b, suits h n i = some b := by
  unfold suits
  split
  · exact nameMatches_ends hf n i
  · exact nameEquals_ends hf n i

section FindSteps
variable {n : String} {f i : Nat} {fwd : Bool}

theorem find_own (hg : h.isGroup i = true) (hown : suits h n i = some true) :
    find h n (f + 1) fwd i = some (some i) := by
  rw [find,if_pos hg,hown]
  rfl

theorem find_direct {e : Nat} (hg : h.isGroup i = true) (hown : suits h n i = some false)
    (hdirect : Lib.firstThat (suits h n) (h.elements i) = some (some e)) : find h n (f + 1) fwd i = some (some e) := by
  rw [find,if_pos hg,hown]
  change (Lib.firstThat _ _).bind _ = _
  rw [hdirect]
  rfl

/-- A group where nothing suits, itself included, asks its elements. -/
theorem find_forward (hg : h.isGroup i = true) (hown : suits h n i = some false)
    (hdirect : Lib.firstThat (suits h n) (h.elements i) = some none) : find h n (f + 1) fwd i =
      if fwd then Lib.firstAnswer (find h n f true) (h.elements i) else some none := by
  rw [find,if_pos hg,hown]
  change (Lib.firstThat _ _).bind _ = _
  rw [hdirect]
  rfl

theorem find_device {own : Bool} (hg : h.isGroup i ≠ true) (hown : nameEquals h n i = some own) :
    find h n (f + 1) fwd i = some (if own then some i else none) := by
  rw [find,if_neg hg,hown]
  rfl

end FindSteps

/-- What `find` says of the elements it has gone through. -/
structure Found (h : Heap) (rank : Nat → Nat) (n : String) (f : Nat) (fwd : Bool) (i : Nat)
    (r : Option Nat) : Prop where
  returns : find h n f fwd i = some r
  below : ∀ e ∈ r, (e = i ∧ h.isGroup i = false) ∨ e = i ∧ suits h n i = some true ∨ rank i < rank e
  own : r = none → h.isGroup i = false → nameEquals h n i = some false
  here : r = none → h.isGroup i = true → ∀ e ∈ h.elements i, suits h n e = some false
  forward : r = none → h.isGroup i = true → fwd = true →
    ∀ e ∈ h.elements i, find h n (f - 1) true e = some none

theorem find_ends (hf : Forest h) {k : Nat} (hr : Ranked rank k h) (n : String) (f : Nat) (fwd : Bool)
    (i : Nat) (hi : k < f + rank i) : ∃ r, Found h rank n f fwd i r := by
  induction f generalizing fwd i with
  | zero =>
    have := hr.most i
    omega
  | succ f ih =>
    cases hg : h.isGroup i with
    | false =>
      obtain ⟨b,hb⟩ := nameEquals_ends hf n i
      refine ⟨_,find_device (Bool.eq_false_iff.mp hg) hb,?_,?_,?_,?_⟩
      · intro e hm
        cases b with
        | true => exact .inl ⟨(Option.mem_some_iff.mp hm).symm,hg⟩
        | false => cases hm
      · intro hn _
        cases b with
        | true => cases hn
        | false => exact hb
      · intro _ ht
        rw [hg] at ht
        cases ht
      · intro _ ht
        rw [hg] at ht
        cases ht
    | true =>
      obtain ⟨own,hown⟩ := suits_ends hf n i
      cases own with
      | true =>
        refine ⟨some i,find_own hg hown,?_,?_,?_,?_⟩
        · intro e hm
          exact .inr (.inl ⟨(Option.mem_some_iff.mp hm).symm,hown⟩)
        all_goals exact fun hn => by cases hn
      | false =>
        obtain ⟨direct,hdirect,hin,hnone⟩ :=
          Lib.firstThat_ends (l := h.elements i) (fun e _ => suits_ends hf n e)
        cases direct with
        | some e =>
          refine ⟨some e,find_direct hg hown hdirect,?_,?_,?_,?_⟩
          · intro x hx
            cases Option.mem_some_iff.mp hx
            exact .inr (.inr (hr.element hf (hin e rfl).1))
          all_goals exact fun hn => by cases hn
        | none =>
          have hdown : ∀ e ∈ h.elements i, ∃ r, Found h rank n f true e r := by
            intro e hm
            have := hr.element hf hm
            exact ih true e (by omega)
          cases fwd with
          | false =>
            refine ⟨none,find_forward hg hown hdirect,?_,?_,?_,?_⟩
            · intro e hm
              cases hm
            · intro _ ht
              rw [hg] at ht
              cases ht
            · exact fun _ _ => hnone rfl
            · intro _ _ hfwd
              cases hfwd
          | true =>
            obtain ⟨r,hres,hin',hnone'⟩ := Lib.firstAnswer_ends (f := find h n f true)
              (l := h.elements i) (fun e hm => (hdown e hm).imp (fun _ hd => hd.returns))
            refine ⟨r,(find_forward hg hown hdirect).trans hres,?_,?_,?_,?_⟩
            · intro x hx
              obtain ⟨e,hm,he⟩ := hin' x hx
              have hlt := hr.element hf hm
              obtain ⟨re,hre⟩ := hdown e hm
              have hrx : re = some x := Option.some.inj (hre.returns.symm.trans he)
              rcases hre.below x hrx with ⟨rfl,-⟩ | ⟨rfl,-⟩ | hlt'
              · exact .inr (.inr hlt)
              · exact .inr (.inr hlt)
              · exact .inr (.inr (by omega))
            · intro _ ht
              rw [hg] at ht
              cases ht
            · exact fun _ _ => hnone rfl
            · exact fun hn _ _ => hnone' hn

theorem findI_ends (hf : Forest h) (i : Nat) (n : String) (fwd : Bool) :
    ∃ r, findI h i n fwd = some r := by
  obtain ⟨rank,hr⟩ := hf.ranked
  have hi : h.next < h.fuel + rank i := by
    unfold Heap.fuel
    omega
  obtain ⟨r,hf⟩ := find_ends hf hr n h.fuel fwd i hi
  exact ⟨r,hf.returns⟩

theorem deviceList_ends (hf : Forest h) {k : Nat} (hr : Ranked rank k h) (f : Nat) (fwd : Bool)
    (i : Nat) (hi : k < f + rank i) : ∃ l, deviceList h f fwd i = some l := by
  induction f generalizing i with
  | zero =>
    have := hr.most i
    omega
  | succ f ih =>
    rw [deviceList]
    apply Lib.gather_ends
    intro e hm
    have := hr.element hf hm
    split
    · split
      · exact ih e (by omega)
      · exact ⟨[],rfl⟩
    · exact ⟨_,rfl⟩

theorem subtree_ends (hf : Forest h) {k : Nat} (hr : Ranked rank k h) (f i : Nat)
    (hi : k < f + rank i) : ∃ l, subtree h f i = some l ∧
      ∀ j, j ∈ l ↔ Relation.ReflTransGen (Lib.Up h.parent) j i := by
  induction f generalizing i with
  | zero =>
    have := hr.most i
    omega
  | succ f ih =>
    have hdown : ∀ e ∈ h.elements i, ∃ l, subtree h f e = some l ∧
        ∀ j, j ∈ l ↔ Relation.ReflTransGen (Lib.Up h.parent) j e := by
      intro e hm
      have := hr.element hf hm
      exact ih e (by omega)
    obtain ⟨ys,hys⟩ := Lib.gather_ends (f := subtree h f) (l := h.elements i)
      (fun e hm => (hdown e hm).imp (fun _ hd => hd.1))
    rw [subtree,hys]
    refine ⟨i :: ys,rfl,?_⟩
    intro j
    rw [List.mem_cons,Lib.mem_gather hys]
    constructor
    · rintro (rfl | ⟨e,hm,l,hl,hj⟩)
      · exact .refl
      · obtain ⟨l',hl',hmem⟩ := hdown e hm
        cases hl.symm.trans hl'
        exact .tail ((hmem j).mp hj) ((hf.child i e).mp hm)
    · intro hj
      rcases Relation.ReflTransGen.cases_tail hj with he | ⟨e,hje,hei⟩
      · exact .inl he.symm
      · have hm : e ∈ h.elements i := (hf.child i e).mpr hei
        obtain ⟨l,hl,hmem⟩ := hdown e hm
        exact .inr ⟨e,hm,l,hl,(hmem j).mpr hje⟩

theorem ends_of_forest (hf : Forest h) : Ends h := by
  intro i
  refine ⟨fullyQualifiedName_ends hf i,?_,fun n fwd => findI_ends hf i n fwd⟩
  intro fwd
  obtain ⟨rank,hr⟩ := hf.ranked
  apply deviceList_ends hf hr
  unfold Heap.fuel
  omega

end Ranked

section Cells
variable {h : Heap}

@[simp] theorem set_next (i : Nat) (e : GroupElement) : (h.set i e).next = h.next := rfl

theorem setElements_cells {i : Nat} {l : List Nat} {e : GroupElement} (he : h.cells i = some e) :
    (h.setElements i l) = h.set i { e with elements := some l } := by
  unfold Heap.setElements
  rw [he]

theorem setParent_cells {i p : Nat} {e : GroupElement} (he : h.cells i = some e) :
    (h.setParent i p) = h.set i { e with parent := some p } := by
  unfold Heap.setParent
  rw [he]

theorem set_elements (i : Nat) (e : GroupElement) :
    (h.set i e).elements = Function.update h.elements i (e.elements.getD []) := by
  funext j
  unfold Heap.elements Heap.set
  dsimp only
  by_cases hj : j = i
  · rw [hj,Function.update_self,Function.update_self]
    rfl
  · rw [Function.update_of_ne hj,Function.update_of_ne hj]

theorem set_parent (i : Nat) (e : GroupElement) :
    (h.set i e).parent = Function.update h.parent i e.parent := by
  funext j
  unfold Heap.parent Heap.set
  dsimp only
  by_cases hj : j = i
  · rw [hj,Function.update_self,Function.update_self]
    rfl
  · rw [Function.update_of_ne hj,Function.update_of_ne hj]

theorem elements_of_cells {i : Nat} {e : GroupElement} (he : h.cells i = some e) :
    h.elements i = e.elements.getD [] := by
  unfold Heap.elements
  rw [he]
  rfl

theorem parent_of_cells {i : Nat} {e : GroupElement} (he : h.cells i = some e) :
    h.parent i = e.parent := by
  unfold Heap.parent
  rw [he]
  rfl

/-- The two changes of `add_i`. -/
def attach (h : Heap) (this e : Nat) : Heap :=
  (h.setElements this (h.elements this ++ [e])).setParent e this

structure Attached (h : Heap) (this e : Nat) (h' : Heap) : Prop where
  next : h'.next = h.next
  elements : h'.elements = Function.update h.elements this (h.elements this ++ [e])
  parent : h'.parent = Function.update h.parent e (some this)
  same : ∀ i, i ≠ this → i ≠ e → h'.cells i = h.cells i
  name : h'.name = h.name
  isGroup : h'.isGroup = h.isGroup
  live : ∀ i, h'.cells i = none ↔ h.cells i = none

theorem attached_attach {this e : Nat} (hg : h.isGroup this = true) (he : h.cells e ≠ none)
    (hne : e ≠ this) : Attached h this e (attach h this e) := by
  obtain ⟨t,ht⟩ := Option.ne_none_iff_exists'.mp (live_of_isGroup hg)
  obtain ⟨x,hx⟩ := Option.ne_none_iff_exists'.mp he
  have hx' : (h.set this { t with elements := some (h.elements this ++ [e]) }).cells e = some x := by
    unfold Heap.set
    dsimp only
    rw [Function.update_of_ne hne,hx]
  have hcells : attach h this e =
      (h.set this { t with elements := some (h.elements this ++ [e]) }).set e
        { x with parent := some this } := by
    unfold attach
    rw [setElements_cells ht,setParent_cells hx']
  have hcell : ∀ i, (attach h this e).cells i =
      if i = e then some { x with parent := some this }
      else if i = this then some { t with elements := some (h.elements this ++ [e]) }
      else h.cells i := by
    intro i
    rw [hcells]
    unfold Heap.set
    dsimp only
    rw [Function.update_apply,Function.update_apply]
  constructor
  · rw [hcells]
    rfl
  · rw [hcells,set_elements,set_elements]
    have hself : h.elements e = x.elements.getD [] := elements_of_cells hx
    funext i
    by_cases hi : i = e
    · rw [hi,Function.update_self,Function.update_of_ne hne,hself]
    · rw [Function.update_of_ne hi]
      rfl
  · rw [hcells,set_parent,set_parent]
    have hself : h.parent this = t.parent := parent_of_cells ht
    funext i
    by_cases hi : i = e
    · rw [hi,Function.update_self,Function.update_self]
    · rw [Function.update_of_ne hi,Function.update_of_ne hi]
      by_cases hi' : i = this
      · rw [hi',Function.update_self,hself]
      · rw [Function.update_of_ne hi']
  · intro i hi hi'
    rw [hcell,if_neg hi',if_neg hi]
  · funext i
    unfold Heap.name
    rw [hcell]
    by_cases hi : i = e
    · rw [if_pos hi,hi,hx]
      rfl
    · rw [if_neg hi]
      by_cases hi' : i = this
      · rw [if_pos hi',hi',ht]
        rfl
      · rw [if_neg hi']
  · funext i
    unfold Heap.isGroup at hg ⊢
    rw [hcell]
    by_cases hi : i = e
    · rw [if_pos hi,hi,hx]
      rfl
    · rw [if_neg hi]
      by_cases hi' : i = this
      · rw [if_pos hi',hi',hg]
        rfl
      · rw [if_neg hi']
  · intro i
    rw [hcell]
    by_cases hi : i = e
    · rw [if_pos hi,hi,hx]
      exact iff_of_false (fun hn => by cases hn) (fun hn => by cases hn)
    · rw [if_neg hi]
      by_cases hi' : i = this
      · rw [if_pos hi',hi',ht]
        exact iff_of_false (fun hn => by cases hn) (fun hn => by cases hn)
      · rw [if_neg hi']

/-- A root is put under a group that it is not above. -/
theorem forest_attached {this e : Nat} {h' : Heap} (hf : Forest h) (ha : Attached h this e h')
    (hroot : h.parent e = none)
    (hn : ¬ Relation.ReflTransGen (Lib.Up h.parent) this e) : Forest h' := by
  have hnot : ∀ i, e ∉ h.elements i := by
    intro i hm
    rw [hf.child,hroot] at hm
    cases hm
  constructor
  · intro i hi
    rw [ha.next]
    exact hf.inside i (fun h0 => hi ((ha.live i).mpr h0))
  · intro i j
    rw [ha.elements,ha.parent]
    by_cases hi : i = this
    · rw [hi,Function.update_self,List.mem_append,List.mem_singleton,hf.child]
      by_cases hj : j = e
      · rw [hj,Function.update_self]
        exact iff_of_true (.inr rfl) rfl
      · rw [Function.update_of_ne hj]
        exact or_iff_left hj
    · rw [Function.update_of_ne hi]
      by_cases hj : j = e
      · rw [hj,Function.update_self]
        exact iff_of_false (hnot i) (fun he => hi (Option.some.inj he).symm)
      · rw [Function.update_of_ne hj]
        exact hf.child i j
  · intro i
    rw [ha.elements]
    by_cases hi : i = this
    · rw [hi,Function.update_self]
      apply List.nodup_append.mpr
      refine ⟨hf.once this,List.nodup_singleton e,?_⟩
      intro a hm b hb he
      rw [he,List.mem_singleton.mp hb] at hm
      exact hnot this hm
    · rw [Function.update_of_ne hi]
      exact hf.once i
  · rw [ha.parent]
    exact Lib.acyclic_attach hf.acyclic hn

end Cells

section Removal
variable {h : Heap}

/-- Elements went away, and the others have their parents. -/
structure Smaller (h' h : Heap) : Prop where
  next : h'.next = h.next
  parent : ∀ j i, h'.parent j = some i → h.parent j = some i
  isGroup : ∀ i, h'.isGroup i = true → h.isGroup i = true

theorem Smaller.refl (h : Heap) : Smaller h h := ⟨rfl,fun _ _ hp => hp,fun _ hg => hg⟩

theorem Smaller.trans {h₁ h₂ h₃ : Heap} (a : Smaller h₁ h₂) (b : Smaller h₂ h₃) : Smaller h₁ h₃ :=
  ⟨a.next.trans b.next,fun j i hp => b.parent j i (a.parent j i hp),
    fun i hg => b.isGroup i (a.isGroup i hg)⟩

/-- The elements under one of a group are gone, and it is out of the list of the group. -/
structure Pruned (h : Heap) (this e : Nat) (l : List Nat) (h' : Heap) : Prop where
  next : h'.next = h.next
  elements : ∀ i, h'.elements i =
    if i ∈ l then [] else if i = this then (h.elements this).erase e else h.elements i
  parent : ∀ i, h'.parent i = if i ∈ l then none else h.parent i
  isGroup : ∀ i, h'.isGroup i = true → h.isGroup i = true
  live : ∀ i, h'.cells i ≠ none → h.cells i ≠ none

theorem delete_cells {e : Nat} {l : List Nat} (hl : subtree h h.fuel e = some l) :
    ∃ d, h.delete e = some d ∧ d.next = h.next ∧ ∀ i, d.cells i = if i ∈ l then none else h.cells i := by
  refine ⟨{ h with cells := fun j => if l.contains j then none else h.cells j },?_,rfl,?_⟩
  · unfold Heap.delete
    rw [hl]
    rfl
  · intro i
    dsimp only
    by_cases hi : i ∈ l
    · rw [if_pos (List.contains_iff_mem.mpr hi),if_pos hi]
    · rw [if_neg (fun hc => hi (List.contains_iff_mem.mp hc)),if_neg hi]

theorem pruned_removeOne {this e : Nat} {l : List Nat} (hm : e ∈ h.elements this)
    (hl : subtree h h.fuel e = some l) (hthis : this ∉ l) :
    ∃ h', removeOne h this e = some h' ∧ Pruned h this e l h' := by
  obtain ⟨t,ht⟩ := Option.ne_none_iff_exists'.mp (live_of_elements hm)
  obtain ⟨d,hdel,hnext,hcell⟩ := delete_cells hl
  have hdt : d.cells this = some t := by
    rw [hcell,if_neg hthis,ht]
  have helems : ∀ i, d.elements i = if i ∈ l then [] else h.elements i := by
    intro i
    unfold Heap.elements
    rw [hcell]
    split <;> rfl
  have hparent : ∀ i, d.parent i = if i ∈ l then none else h.parent i := by
    intro i
    unfold Heap.parent
    rw [hcell]
    split <;> rfl
  refine ⟨d.setElements this ((d.elements this).erase e),?_,?_⟩
  · unfold removeOne
    rw [if_pos (List.contains_iff_mem.mpr hm),hdel]
    rfl
  · rw [setElements_cells hdt]
    constructor
    · exact hnext
    · intro i
      rw [set_elements]
      by_cases hi : i = this
      · rw [hi,Function.update_self,if_neg hthis,if_pos rfl]
        change (d.elements this).erase e = _
        rw [helems,if_neg hthis]
      · rw [Function.update_of_ne hi,helems,if_neg hi]
    · intro i
      rw [set_parent,← hparent]
      by_cases hi : i = this
      · rw [hi,Function.update_self]
        exact (parent_of_cells hdt).symm
      · rw [Function.update_of_ne hi]
    · intro i hg
      by_cases hi : i = this
      · rw [hi]
        exact isGroup_of_elements hm
      · unfold Heap.isGroup Heap.set at hg
        dsimp only at hg
        rw [Function.update_of_ne hi,hcell] at hg
        by_cases hil : i ∈ l
        · rw [if_pos hil] at hg
          cases hg
        · rw [if_neg hil] at hg
          exact hg
    · intro i hlive
      by_cases hi : i = this
      · rw [hi,ht]
        exact fun hn => by cases hn
      · unfold Heap.set at hlive
        dsimp only at hlive
        rw [Function.update_of_ne hi,hcell] at hlive
        by_cases hil : i ∈ l
        · rw [if_pos hil] at hlive
          exact absurd rfl hlive
        · rw [if_neg hil] at hlive
          exact hlive

theorem forest_pruned {this e : Nat} {l : List Nat} {h' : Heap} (hf : Forest h)
    (hm : e ∈ h.elements this) (hl : ∀ j, j ∈ l ↔ Relation.ReflTransGen (Lib.Up h.parent) j e)
    (hp : Pruned h this e l h') : Forest h' := by
  have hpe : h.parent e = some this := (hf.child this e).mp hm
  have hel : e ∈ l := (hl e).mpr .refl
  have hthis : this ∉ l := fun ht => hf.acyclic e (.head' hpe ((hl this).mp ht))
  have hup : ∀ j i, h.parent j = some i → i ∈ l → j ∈ l :=
    fun j i hp hi => (hl j).mpr (.head hp ((hl i).mp hi))
  -- an element of a group that stays is only gone when it is the one taken out
  have hdown : ∀ j i, h.parent j = some i → i ∉ l → j ∈ l → j = e := by
    intro j i hji hi hj
    rcases Relation.ReflTransGen.cases_head ((hl j).mp hj) with he | ⟨c,hjc,hce⟩
    · exact he
    · have hci : c = i := Option.some.inj (hjc.symm.trans hji)
      exact absurd ((hl i).mpr (hci ▸ hce)) hi
  constructor
  · intro i hi
    rw [hp.next]
    exact hf.inside i (hp.live i hi)
  · intro i j
    rw [hp.elements,hp.parent]
    by_cases hi : i ∈ l
    · rw [if_pos hi]
      by_cases hj : j ∈ l
      · rw [if_pos hj]
        exact iff_of_false List.not_mem_nil (fun hn => by cases hn)
      · rw [if_neg hj]
        exact iff_of_false List.not_mem_nil (fun hji => hj (hup j i hji hi))
    · rw [if_neg hi]
      by_cases hit : i = this
      · rw [if_pos hit,(hf.once this).mem_erase_iff,hf.child,hit]
        by_cases hj : j ∈ l
        · rw [if_pos hj]
          exact iff_of_false (fun ⟨hne,hji⟩ => hne (hdown j this hji hthis hj)) (fun hn => by cases hn)
        · rw [if_neg hj]
          exact and_iff_right (fun he => hj (he ▸ hel))
      · rw [if_neg hit,hf.child]
        by_cases hj : j ∈ l
        · rw [if_pos hj]
          refine iff_of_false (fun hji => ?_) (fun hn => by cases hn)
          have he := hdown j i hji hi hj
          rw [he,hpe] at hji
          exact hit (Option.some.inj hji).symm
        · rw [if_neg hj]
  · intro i
    rw [hp.elements]
    split
    · exact List.nodup_nil
    · split
      · exact (hf.once this).erase e
      · exact hf.once i
  · apply Lib.acyclic_mono hf.acyclic
    intro a b hab
    rw [hp.parent] at hab
    split at hab
    · cases hab
    · exact hab

theorem forest_removeOne (hf : Forest h) (this e : Nat) :
    ∃ h', removeOne h this e = some h' ∧ Forest h' ∧ Smaller h' h := by
  by_cases hm : e ∈ h.elements this
  · obtain ⟨rank,hr⟩ := hf.ranked
    obtain ⟨l,hl,hmem⟩ := subtree_ends hf hr h.fuel e (by unfold Heap.fuel; omega)
    have hpe : h.parent e = some this := (hf.child this e).mp hm
    have hthis : this ∉ l := fun ht => hf.acyclic e (.head' hpe ((hmem this).mp ht))
    obtain ⟨h',he,hp⟩ := pruned_removeOne hm hl hthis
    refine ⟨h',he,forest_pruned hf hm hmem hp,hp.next,?_,hp.isGroup⟩
    intro j i hji
    rw [hp.parent] at hji
    split at hji
    · cases hji
    · exact hji
  · refine ⟨h,?_,hf,Smaller.refl h⟩
    unfold removeOne
    rw [if_neg (fun hc => hm (List.contains_iff_mem.mp hc))]

/-- A loop of removals. -/
theorem forest_loop {f : Heap → Nat → Option Heap} {l : List Nat} {h₀ : Heap}
    (hstep : ∀ e ∈ l, ∀ h, Forest h → Smaller h h₀ →
      ∃ h', f h e = some h' ∧ Forest h' ∧ Smaller h' h₀)
    (hf : Forest h) (hs : Smaller h h₀) :
    ∃ h', l.foldlM f h = some h' ∧ Forest h' ∧ Smaller h' h₀ := by
  induction l generalizing h with
  | nil => exact ⟨h,rfl,hf,hs⟩
  | cons e l ih =>
    obtain ⟨h₁,he,hf₁,hs₁⟩ := hstep e List.mem_cons_self h hf hs
    rw [List.foldlM_cons,he]
    exact ih (fun x hx => hstep x (List.mem_cons_of_mem e hx)) hf₁ hs₁

theorem forest_removeList (hf : Forest h) (this : Nat) (l : List Nat) :
    ∃ h', removeList h this l = some h' ∧ Forest h' ∧ Smaller h' h := by
  apply forest_loop ?_ hf (Smaller.refl h)
  intro e _ h₁ hf₁ hs₁
  obtain ⟨h₂,he,hf₂,hs₂⟩ := forest_removeOne hf₁ this e
  exact ⟨h₂,he,hf₂,hs₂.trans hs₁⟩

theorem forest_removeHere (hf : Forest h) (this : Nat) (p : String) :
    ∃ h', removeHere h this p = some h' ∧ Forest h' ∧ Smaller h' h := by
  unfold removeHere
  split
  · have hends : ∃ l, matching h p (h.elements this) = some l := by
      apply Lib.gather_ends
      intro e _
      obtain ⟨b,hb⟩ := nameMatches_ends hf p e
      rw [hb]
      exact ⟨_,rfl⟩
    obtain ⟨l,hl⟩ := hends
    rw [hl]
    exact forest_removeList hf this l
  · obtain ⟨r,hr,-⟩ := Lib.firstThat_ends (l := h.elements this) (fun e _ => nameEquals_ends hf p e)
    rw [hr]
    cases r with
    | none => exact ⟨h,rfl,hf,Smaller.refl h⟩
    | some e => exact forest_removeOne hf this e

theorem forest_removeI {h₀ : Heap} {rank : Nat → Nat} {k : Nat} (hr : Ranked rank k h₀) (p : String)
    (fwd : Bool) (f : Nat) (this : Nat) (hi : k < f + rank this) (hf : Forest h) (hs : Smaller h h₀) :
    ∃ h', removeI p fwd f h this = some h' ∧ Forest h' ∧ Smaller h' h₀ := by
  induction f generalizing h this with
  | zero =>
    have := hr.most this
    omega
  | succ f ih =>
    obtain ⟨own,hown⟩ := nameEquals_ends hf p this
    rw [removeI,hown]
    cases own with
    | true => exact ⟨h,rfl,hf,hs⟩
    | false =>
      obtain ⟨h₁,he,hf₁,hs₁⟩ := forest_removeHere hf this p
      have hs₁ := hs₁.trans hs
      change ∃ h', (removeHere h this p).bind _ = some h' ∧ _
      rw [he]
      cases fwd with
      | false => exact ⟨h₁,rfl,hf₁,hs₁⟩
      | true =>
        change ∃ h', (h₁.elements this).foldlM _ h₁ = some h' ∧ _
        apply forest_loop ?_ hf₁ hs₁
        intro e hm h₂ hf₂ hs₂
        have hlt := hr.up e this (hs₁.parent e this ((hf₁.child this e).mp hm))
        split
        · exact ih e (by omega) hf₂ hs₂
        · exact ⟨h₂,rfl,hf₂,hs₂⟩

theorem forest_remove (hf : Forest h) (this : Nat) (p : String) (fwd : Bool) :
    ∃ h', remove h this p fwd = some h' ∧ Forest h' := by
  obtain ⟨rank,hr⟩ := hf.ranked
  obtain ⟨h',he,hf',-⟩ := forest_removeI hr p fwd h.fuel this (by unfold Heap.fuel; omega) hf
    (Smaller.refl h)
  exact ⟨h',he,hf'⟩

end Removal

section Groups
variable {h : Heap}

theorem above_mem {rank : Nat → Nat} {k : Nat} (hr : Ranked rank k h) {i g : Nat}
    (hp : Relation.TransGen (Lib.Up h.parent) i g) (f : Nat) (hi : rank i < f) :
    g ∈ above h f i := by
  induction f generalizing i with
  | zero => omega
  | succ f ih =>
    obtain ⟨p,hip,hpg⟩ := Relation.TransGen.head'_iff.mp hp
    have hip : h.parent i = some p := hip
    rw [above,hip]
    rcases Relation.ReflTransGen.cases_head hpg with rfl | ⟨c,hpc,hcg⟩
    · exact List.mem_cons_self
    · have := hr.up i p hip
      exact List.mem_cons_of_mem _ (ih (.head' hpc hcg) (by omega))

theorem addI_eq (hf : Forest h) {this e : Nat} (fwd : Bool) (hne : e ≠ this) :
    ∃ te, findI h this (h.name e) fwd = some te ∧
      addI h this e fwd =
        some (if te.isSome ∧ te ≠ some this then (false,h) else (true,attach h this e)) := by
  obtain ⟨te,hte⟩ := findI_ends hf this (h.name e) fwd
  refine ⟨te,hte,?_⟩
  unfold addI
  rw [if_neg hne,hte]
  rfl

theorem forest_addGroup (hf : Forest h) {this : Nat} {g : Option Nat}
    (hl : Legal h (.addGroup this g)) (hc : Fits h (.addGroup this g)) :
    ∃ h', addGroup h this g = some h' ∧ Forest h' := by
  cases g with
  | none => exact ⟨h,rfl,hf⟩
  | some g =>
    obtain ⟨hthis,hg⟩ := hl
    obtain ⟨hgroup,hroot⟩ := hg g rfl
    obtain ⟨a,ha⟩ := findI_ends hf this (h.name g) true
    obtain ⟨b,hb⟩ := findI_ends hf g (h.name this) true
    have hka : getGroupI h this (h.name g) = some (a.filter h.isGroup) := by
      unfold getGroupI
      rw [ha]
      rfl
    have hkb : getGroupI h g (h.name this) = some (b.filter h.isGroup) := by
      unfold getGroupI
      rw [hb]
      rfl
    have hadd : addGroup h this (some g) =
        if a.filter h.isGroup = some g then some h
        else if b.filter h.isGroup = some this then some h
        else (addI h this g false).map (·.2) := by
      unfold addGroup
      dsimp only
      rw [hka,hkb]
      rfl
    rw [hadd]
    split
    next => exact ⟨h,rfl,hf⟩
    next =>
    split
    next => exact ⟨h,rfl,hf⟩
    next hnb =>
    by_cases hself : g = this
    · refine ⟨h,?_,hf⟩
      unfold addI
      rw [if_pos hself]
      rfl
    obtain ⟨te,hte,haddI⟩ := addI_eq hf false hself
    rw [haddI]
    by_cases hknown : te.isSome ∧ te ≠ some this
    · rw [if_pos hknown]
      exact ⟨h,rfl,hf⟩
    · rw [if_neg hknown]
      refine ⟨attach h this g,rfl,?_⟩
      apply forest_attached hf (attached_attach hthis (live_of_isGroup hgroup) hself) hroot
      intro hp
      obtain ⟨rank,hr⟩ := hf.ranked
      rcases Relation.reflTransGen_iff_eq_or_transGen.mp hp with he | hp
      · exact hself he
      · have habove := above_mem hr hp h.fuel (Nat.lt_succ_of_le (hr.most this))
        rcases hc g rfl habove with hn | hn
        · rw [hkb,Option.some.injEq] at hn
          exact hnb hn
        · rw [hte] at hn
          cases te with
          | none => cases hn
          | some t =>
            apply hknown
            refine ⟨rfl,?_⟩
            intro he
            cases he
            have ht : (this != this) = true := hn
            simp at ht

end Groups

end CppTango.Client.Group
