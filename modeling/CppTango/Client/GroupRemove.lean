import CppTango.Client.GroupForest
import CppTango.Lib.Patterns
import CppTango.Lib.Prune

namespace CppTango.Client.Group

open CppTango.Device (lowerName)

open CppTango.Lib

section Meaning

/-- A text is the pattern with some text in the place of each star, ignoring case. -/
def Spells (p : String) (n : List Char) : Prop :=
  ∃ n', Stars '*' p.toList n' ∧ n'.map Char.toLower = n.map Char.toLower

/-- The name or the fully qualified name of an element is meant by a pattern. -/
def Matches (h : Heap) (p : String) (i : Nat) : Prop :=
  Spells p (h.name i).toList ∨ ∃ fqn, getFullyQualifiedName h i = some fqn ∧ Spells p fqn

/-- The elements that an operation is about: those of the group and, when it is forwarded, those of all groups under
it. -/
def Concerned (h : Heap) (fwd : Bool) (this m : Nat) : Prop := Member h.parent fwd this m

end Meaning

section Tokens
variable {p : String} {n : List Char}

theorem matchTokens_iff (s : List Char) (pos : Nat) (ts : List (List Char)) :
    matchTokens s pos ts = true ↔ Strung (ts.map (List.map Char.toLower)) (s.drop pos) := by
  induction ts generalizing pos with
  | nil => exact iff_of_true rfl trivial
  | cons t ts ih =>
    rw [matchTokens,List.map_cons,strung_cons_iff]
    cases Lib.find (t.map Char.toLower) (s.drop pos) with
    | none => simp
    | some i => simp [ih,List.drop_drop]

theorem strung_front {l : List (List Char)} {s : List Char} (h : Strung l s) :
    Strung (if l.head? = some [] then l.tail else l) s := by
  split
  · cases l with
    | nil => trivial
    | cons t ts => exact h.tail
  · exact h

theorem strung_back {l : List (List Char)} {s : List Char} (h : Strung l s) :
    Strung (if l.getLast? = some [] then l.dropLast else l) s := by
  split
  · rename_i hl
    obtain ⟨ts,rfl⟩ := List.getLast?_eq_some_iff.mp hl
    rw [List.dropLast_concat]
    exact h.of_append
  · exact h

/-- The tokens are pieces between stars. -/
theorem tokenize_strung {s : List Char} (h : Strung (p.toList.splitOn '*') s) : Strung (tokenize p) s :=
  strung_back (strung_front h)

theorem Spells.matchTokens (h : Spells p n) : matchTokens (n.map Char.toLower) 0 (tokenize p) = true := by
  obtain ⟨n',hs,hn⟩ := h
  rw [matchTokens_iff,← hn,List.drop_zero]
  exact (tokenize_strung hs.strung).map Char.toLower

theorem star_not_mem (hp : isPattern p = false) : '*' ∉ p.toList := by
  unfold isPattern at hp
  simpa using hp

theorem spells_plain (hp : isPattern p = false) : Spells p n ↔ lowerName p = n.map Char.toLower := by
  unfold Spells
  simp only [stars_plain (star_not_mem hp),exists_eq_left]
  rfl

theorem spells_of_equal (h : lowerName p = n.map Char.toLower) : Spells p n := ⟨p.toList,stars_self '*' _,h⟩

end Tokens

section Elements
variable {h : Heap} {p : String} {i : Nat}

theorem nameEquals_iff (hf : Forest h) : nameEquals h p i = some true ↔
    lowerName p = (h.name i).toList.map Char.toLower ∨
      ∃ fqn, getFullyQualifiedName h i = some fqn ∧ lowerName p = fqn.map Char.toLower := by
  obtain ⟨fqn,hfqn⟩ := fullyQualifiedName_ends hf i
  unfold nameEquals
  rw [hfqn]
  simp only [Option.map_some,Option.some.injEq,Bool.or_eq_true,decide_eq_true_eq,exists_eq_left']
  exact Iff.rfl

theorem nameMatches_iff (hf : Forest h) : nameMatches h p i = some true ↔
    matchTokens ((h.name i).toList.map Char.toLower) 0 (tokenize p) = true ∨
      ∃ fqn, getFullyQualifiedName h i = some fqn ∧ matchTokens (fqn.map Char.toLower) 0 (tokenize p) = true := by
  obtain ⟨fqn,hfqn⟩ := fullyQualifiedName_ends hf i
  unfold nameMatches
  rw [hfqn]
  simp [lowerName]

theorem matches_of_nameEquals (hf : Forest h) (he : nameEquals h p i = some true) : Matches h p i := by
  rcases (nameEquals_iff hf).mp he with he | ⟨fqn,hfqn,he⟩
  · exact .inl (spells_of_equal he)
  · exact .inr ⟨fqn,hfqn,spells_of_equal he⟩

/-- What is meant by a pattern is matched. -/
theorem Matches.nameMatches (hf : Forest h) (hm : Matches h p i) : nameMatches h p i = some true := by
  rw [nameMatches_iff hf]
  rcases hm with hm | ⟨fqn,hfqn,hm⟩
  · exact .inl hm.matchTokens
  · exact .inr ⟨fqn,hfqn,hm.matchTokens⟩

theorem matches_plain (hf : Forest h) (hp : isPattern p = false) :
    Matches h p i ↔ nameEquals h p i = some true := by
  rw [nameEquals_iff hf]
  unfold Matches
  simp only [spells_plain hp]

theorem Matches.suits (hf : Forest h) (hm : Matches h p i) : suits h p i = some true := by
  unfold Group.suits
  split
  · exact hm.nameMatches hf
  · rename_i hp
    exact (matches_plain hf (Bool.eq_false_iff.mpr hp)).mp hm

end Elements

section Without
variable {h : Heap} {gone gone' : Nat → Prop} {i j : Nat}

open scoped Classical in
noncomputable def GroupElement.without (gone : Nat → Prop) (e : GroupElement) : GroupElement :=
  { e with elements := e.elements.map (List.filter (fun j => ¬ gone j)) }

open scoped Classical in
/-- The hierarchy without some elements. -/
noncomputable def Heap.without (h : Heap) (gone : Nat → Prop) : Heap where
  cells i := if gone i then none else (h.cells i).map (GroupElement.without gone)
  next := h.next

/-- With an element go all under it. -/
def Closed (h : Heap) (gone : Nat → Prop) : Prop := ∀ j i, h.parent j = some i → gone i → gone j

theorem without_congr (hg : ∀ i, gone i ↔ gone' i) : h.without gone = h.without gone' := by
  rw [funext fun i => propext (hg i)]

theorem cells_without_of_gone (hi : gone i) : (h.without gone).cells i = none := if_pos hi

theorem cells_without (hi : ¬ gone i) : (h.without gone).cells i = (h.cells i).map (GroupElement.without gone) :=
  if_neg hi

theorem heap_eq {a b : Heap} (hc : ∀ i, a.cells i = b.cells i) (hn : a.next = b.next) : a = b := by
  obtain ⟨cells,next⟩ := a
  obtain rfl : cells = b.cells := funext hc
  obtain rfl : next = b.next := hn
  rfl

theorem without_none (h : Heap) : h.without (fun _ => False) = h := by
  refine heap_eq (fun i => ?_) rfl
  rw [cells_without not_false]
  rcases h.cells i with _ | ⟨name,parent,_ | l⟩
  · rfl
  · rfl
  · simp [GroupElement.without]

theorem without_cell_congr (hg : ∀ j ∈ h.elements i, (gone j ↔ gone' j)) :
    (h.cells i).map (GroupElement.without gone) = (h.cells i).map (GroupElement.without gone') := by
  rcases hi : h.cells i with _ | ⟨name,parent,_ | l⟩
  · rfl
  · rfl
  · simp only [Option.map_some,GroupElement.without]
    congr 3
    refine List.filter_congr fun j hj => ?_
    rw [elements_of_cells hi] at hg
    exact decide_eq_decide.mpr (not_congr (hg j hj))

theorem without_name (hi : ¬ gone i) : (h.without gone).name i = h.name i := by
  unfold Heap.name
  rw [cells_without hi,Option.map_map]
  rfl

theorem without_parent_of_gone (hi : gone i) : (h.without gone).parent i = none := by
  unfold Heap.parent
  rw [cells_without_of_gone hi]
  rfl

theorem without_parent (hi : ¬ gone i) : (h.without gone).parent i = h.parent i := by
  unfold Heap.parent
  rw [cells_without hi]
  cases h.cells i <;> rfl

theorem without_isGroup (hi : ¬ gone i) : (h.without gone).isGroup i = h.isGroup i := by
  unfold Heap.isGroup
  rw [cells_without hi]
  rcases h.cells i with _ | ⟨name,parent,_ | l⟩ <;> rfl

theorem without_elements_of_gone (hi : gone i) : (h.without gone).elements i = [] := by
  unfold Heap.elements
  rw [cells_without_of_gone hi]
  rfl

open scoped Classical in
theorem without_elements (hi : ¬ gone i) :
    (h.without gone).elements i = (h.elements i).filter (fun j => ¬ gone j) := by
  unfold Heap.elements
  rw [cells_without hi]
  rcases h.cells i with _ | ⟨name,parent,_ | l⟩ <;> rfl

theorem mem_without_elements (hi : ¬ gone i) : j ∈ (h.without gone).elements i ↔ j ∈ h.elements i ∧ ¬ gone j := by
  rw [without_elements hi,List.mem_filter]
  simp only [decide_eq_true_eq]

theorem Closed.kept (hc : Closed h gone) (hj : ¬ gone j) (hp : h.parent j = some i) : ¬ gone i :=
  fun hi => hj (hc j i hp hi)

theorem Closed.below (hc : Closed h gone) (hji : Below h.parent j i) (hi : gone i) : gone j := by
  induction hji using Relation.ReflTransGen.head_induction_on with
  | refl => exact hi
  | head hab _ ih => exact hc _ _ hab ih

theorem Closed.or (hc : Closed h gone) (hc' : Closed h gone') : Closed h (fun i => gone i ∨ gone' i) :=
  fun j i hp hi => hi.imp (hc j i hp) (hc' j i hp)

theorem closed_below (h : Heap) (e : Nat) : Closed h (fun j => Below h.parent j e) := fun _ _ hp hi => .head hp hi

theorem forest_without (hf : Forest h) (hc : Closed h gone) : Forest (h.without gone) where
  inside i hi := by
    refine hf.inside i fun hn => hi ?_
    by_cases hg : gone i
    · exact cells_without_of_gone hg
    · rw [cells_without hg,hn]
      rfl
  child i j := by
    by_cases hi : gone i
    · rw [without_elements_of_gone hi]
      refine iff_of_false List.not_mem_nil fun hj => ?_
      by_cases hg : gone j
      · rw [without_parent_of_gone hg] at hj
        cases hj
      · rw [without_parent hg] at hj
        exact hc.kept hg hj hi
    · rw [mem_without_elements hi,hf.child]
      by_cases hg : gone j
      · rw [without_parent_of_gone hg]
        exact iff_of_false (fun hj => hj.2 hg) nofun
      · rw [without_parent hg]
        exact and_iff_left hg
  once i := by
    by_cases hi : gone i
    · rw [without_elements_of_gone hi]
      exact List.nodup_nil
    · rw [without_elements hi]
      exact (hf.once i).filter _
  acyclic := acyclic_mono hf.acyclic fun a b hab => by
    by_cases ha : gone a
    · rw [without_parent_of_gone ha] at hab
      cases hab
    · rwa [without_parent ha] at hab

/-- What stays is under the same elements. -/
theorem below_without (hc : Closed h gone) (hj : ¬ gone j) :
    Below (h.without gone).parent j i ↔ Below h.parent j i := by
  constructor
  · intro hb
    refine Relation.ReflTransGen.mono (fun a b hab => ?_) j i hb
    by_cases ha : gone a
    · have hab : (h.without gone).parent a = some b := hab
      rw [without_parent_of_gone ha] at hab
      cases hab
    · exact (without_parent ha).symm.trans hab
  · intro hb
    induction hb using Relation.ReflTransGen.head_induction_on with
    | refl => exact .refl
    | head hab _ ih => exact .head ((without_parent hj).trans hab) (ih (hc.kept hj hab))

theorem qualifiedName_without (hc : Closed h gone) (f : Nat) (hi : ¬ gone i) :
    qualifiedName (h.without gone) f i = qualifiedName h f i := by
  induction f generalizing i with
  | zero => rfl
  | succ f ih =>
    rw [qualifiedName,qualifiedName,without_parent hi,without_name hi]
    cases hp : h.parent i with
    | none => rfl
    | some p =>
      dsimp only
      rw [ih (hc.kept hi hp)]

theorem nameEquals_without (hc : Closed h gone) (p : String) (hi : ¬ gone i) :
    nameEquals (h.without gone) p i = nameEquals h p i := by
  unfold nameEquals getFullyQualifiedName
  rw [without_name hi]
  exact congrArg (Option.map _) (qualifiedName_without hc h.fuel hi)

theorem nameMatches_without (hc : Closed h gone) (p : String) (hi : ¬ gone i) :
    nameMatches (h.without gone) p i = nameMatches h p i := by
  unfold nameMatches getFullyQualifiedName
  rw [without_name hi]
  exact congrArg (Option.map _) (qualifiedName_without hc h.fuel hi)

end Without

section Removing
variable {h : Heap} {gone : Nat → Prop} {this e : Nat} {p : String}

theorem Closed.not_elements (hc : Closed h gone) (hf : Forest h) (hg : gone e) :
    e ∉ (h.without gone).elements this := by
  intro hm
  have := ((forest_without hf hc).child this e).mp hm
  rw [without_parent_of_gone hg] at this
  cases this

open scoped Classical in
/-- The list of a group without one of its elements. -/
theorem erase_element (hf : Forest h) {l : List Nat} (hl : l.Sublist (h.elements this)) (he : h.parent e = some this) :
    l.erase e = l.filter (fun j => ¬ Below h.parent j e) := by
  rw [((hf.once this).sublist hl).erase_eq_filter]
  refine List.filter_congr fun j hj => ?_
  have hp : h.parent j = some this := (hf.child this j).mp (hl.subset hj)
  have hthis : ¬ Below h.parent this e := fun hb => hf.acyclic e (.head' he hb)
  have hiff : Below h.parent j e ↔ j = e :=
    ⟨fun hb => (hb.cases hp).resolve_right hthis,fun he => he ▸ .refl⟩
  rw [bne,beq_eq_decide]
  simp only [hiff,decide_not]

theorem setElements_at {d : Heap} {t : GroupElement} (ht : d.cells this = some t) (l : List Nat) (i : Nat) :
    (d.setElements this l).cells i = if i = this then some { t with elements := some l } else d.cells i := by
  rw [setElements_cells ht]
  exact Function.update_apply ..

/-- One element is deleted with all under it. -/
theorem removeOne_without (hf : Forest h) (hc : Closed h gone) (ht : ¬ gone this) (he : h.parent e = some this) :
    removeOne (h.without gone) this e = some (h.without (fun j => gone j ∨ Below h.parent j e)) := by
  by_cases hg : gone e
  · have hsame : h.without gone = h.without (fun j => gone j ∨ Below h.parent j e) :=
      without_congr fun j => (or_iff_left_of_imp fun hb => hc.below hb hg).symm
    unfold removeOne
    rw [if_neg fun hm => hc.not_elements hf hg (List.contains_iff_mem.mp hm)]
    exact congrArg some hsame
  · have hf' := forest_without hf hc
    have hm : e ∈ (h.without gone).elements this := by
      rw [hf'.child,without_parent hg]
      exact he
    obtain ⟨rank,hr⟩ := hf'.ranked
    obtain ⟨l,hl,hmem⟩ := subtree_ends hf' hr (h.without gone).fuel e (by unfold Heap.fuel; omega)
    have hmem : ∀ j, ¬ gone j → (j ∈ l ↔ Below h.parent j e) := fun j hj => (hmem j).trans (below_without hc hj)
    have hthis : ¬ Below h.parent this e := fun hb => hf.acyclic e (.head' he hb)
    obtain ⟨d,hdel,hnext,hd⟩ := delete_cells hl
    obtain ⟨⟨name,parent,elements⟩,hcell⟩ :=
      Option.ne_none_iff_exists'.mp (live_of_elements ((hf.child this e).mpr he))
    have hdt : d.cells this = some (GroupElement.without gone ⟨name,parent,elements⟩) := by
      rw [hd,if_neg fun hl => hthis ((hmem this ht).mp hl),cells_without ht,hcell]
      rfl
    unfold removeOne
    rw [if_pos (List.contains_iff_mem.mpr hm),hdel]
    refine congrArg some (heap_eq (fun i => ?_) ?_)
    · rw [setElements_at hdt]
      by_cases hi : i = this
      · rw [hi,if_pos rfl,cells_without (not_or.mpr ⟨ht,hthis⟩),hcell]
        have helems : h.elements this = elements.getD [] := elements_of_cells hcell
        obtain _ | l := elements
        · have hm := (hf.child this e).mpr he
          rw [helems] at hm
          cases hm
        · classical
          have helems : h.elements this = l := helems
          have hlist : d.elements this = l.filter (fun j => ¬ gone j) := elements_of_cells hdt
          rw [hlist,erase_element hf (helems ▸ List.filter_sublist) he,List.filter_filter]
          refine congrArg (fun l => some (GroupElement.mk name parent (some l))) (List.filter_congr fun j _ => ?_)
          rw [Bool.eq_iff_iff,Bool.and_eq_true]
          simp only [decide_eq_true_eq]
          tauto
      · rw [if_neg hi,hd]
        by_cases hgi : gone i
        · rw [cells_without_of_gone hgi,cells_without_of_gone (.inl hgi),ite_self]
        · by_cases hb : Below h.parent i e
          · rw [if_pos ((hmem i hgi).mpr hb),cells_without_of_gone (.inr hb)]
          · rw [if_neg fun hl => hb ((hmem i hgi).mp hl),cells_without hgi,cells_without (not_or.mpr ⟨hgi,hb⟩)]
            refine without_cell_congr fun j hj => (or_iff_left fun hje => ?_).symm
            have hp : h.parent j = some i := (hf.child i j).mp hj
            rcases hje.cases hp with rfl | hie
            · exact hi (Option.some.inj (hp.symm.trans he))
            · exact hb hie
    · show (d.setElements this _).next = h.next
      rw [setElements_cells hdt]
      exact hnext

theorem removeList_without (hf : Forest h) {l : List Nat} (hc : Closed h gone) (ht : ¬ gone this)
    (hl : ∀ e ∈ l, h.parent e = some this) : removeList (h.without gone) this l =
      some (h.without (fun j => gone j ∨ ∃ e ∈ l, Below h.parent j e)) := by
  induction l generalizing gone with
  | nil => exact congrArg some (without_congr fun j => by simp)
  | cons e l ih =>
    have he := hl e List.mem_cons_self
    have hthis : ¬ Below h.parent this e := fun hb => hf.acyclic e (.head' he hb)
    have hrest := ih (hc.or (closed_below h e)) (not_or.mpr ⟨ht,hthis⟩) fun x hx => hl x (List.mem_cons_of_mem e hx)
    unfold removeList at hrest ⊢
    rw [List.foldlM_cons,removeOne_without hf hc ht he]
    refine hrest.trans (congrArg some (without_congr fun j => ?_))
    simp only [List.exists_mem_cons_iff,or_assoc]

/-- What `remove_i` deletes among the elements of one group: all that match a pattern, or the first one that has the
name. -/
def Taken (h : Heap) (p : String) (m : Nat) : Prop :=
  if isPattern p then nameMatches h p m = some true
  else ∃ g, h.parent m = some g ∧ firstThat (nameEquals h p) (h.elements g) = some (some m)

theorem matching_spec (hf : Forest h) (p : String) (l : List Nat) :
    ∃ ms, matching h p l = some ms ∧ ∀ m, m ∈ ms ↔ m ∈ l ∧ nameMatches h p m = some true := by
  have hends : ∀ e ∈ l, ∃ xs, (nameMatches h p e).map (fun b => if b then [e] else []) = some xs := by
    intro e _
    obtain ⟨b,hb⟩ := nameMatches_ends hf p e
    rw [hb]
    exact ⟨_,rfl⟩
  obtain ⟨ms,hms⟩ := gather_ends hends
  refine ⟨ms,hms,fun m => (mem_gather hms).trans ?_⟩
  constructor
  · rintro ⟨e,he,xs,hxs,hm⟩
    obtain ⟨b,hb,rfl⟩ := Option.map_eq_some_iff.mp hxs
    cases b with
    | false => cases hm
    | true =>
      obtain rfl := List.mem_singleton.mp hm
      exact ⟨he,hb⟩
  · rintro ⟨hm,hb⟩
    exact ⟨m,hm,[m],by rw [hb]; rfl,List.mem_singleton_self m⟩

theorem elements_apart (hf : Forest h) (hno : ∀ j, Below h.parent j this → ¬ gone j) :
    (h.without gone).elements this = h.elements this := by
  classical
  rw [without_elements (hno this .refl)]
  refine List.filter_eq_self.mpr fun j hj => decide_eq_true (hno j ?_)
  exact .single ((hf.child this j).mp hj)

/-- What `remove_i` does to the elements of one group. -/
theorem removeHere_without (hf : Forest h) (hc : Closed h gone) (hno : ∀ j, Below h.parent j this → ¬ gone j) :
    removeHere (h.without gone) this p =
      some (h.without (fun j => gone j ∨ TakenHere h.parent (Taken h p) this j)) := by
  have hthis : ¬ gone this := hno this .refl
  have hkept : ∀ e ∈ h.elements this, ¬ gone e := fun e he => hno e (.single ((hf.child this e).mp he))
  unfold removeHere
  rw [elements_apart hf hno]
  by_cases hp : isPattern p = true
  · have hsame : matching (h.without gone) p (h.elements this) = matching h p (h.elements this) :=
      gather_congr fun e he => by rw [nameMatches_without hc p (hkept e he)]
    obtain ⟨ms,hms,hmem⟩ := matching_spec hf p (h.elements this)
    rw [if_pos hp,hsame,hms]
    refine (removeList_without hf hc hthis fun e he => (hf.child this e).mp ((hmem e).mp he).1).trans
      (congrArg some (without_congr fun j => or_congr_right ?_))
    unfold TakenHere Taken
    simp only [hmem,hf.child,if_pos hp,and_assoc]
  · have hsame : firstThat (nameEquals (h.without gone) p) (h.elements this) =
        firstThat (nameEquals h p) (h.elements this) :=
      firstThat_congr fun e he => nameEquals_without hc p (hkept e he)
    obtain ⟨r,hr,hin,-⟩ := firstThat_ends (l := h.elements this) (fun e _ => nameEquals_ends hf p e)
    have htaken : ∀ m, h.parent m = some this → (Taken h p m ↔ r = some m) := by
      intro m hm
      unfold Taken
      simp only [if_neg hp,hm,Option.some.injEq,exists_eq_left',hr]
    rw [if_neg hp,hsame,hr]
    cases r with
    | none =>
      refine congrArg some (without_congr fun j => (or_iff_left ?_).symm)
      rintro ⟨m,hm,ht,-⟩
      cases (htaken m hm).mp ht
    | some e =>
      have he := (hf.child this e).mp (hin e rfl).1
      refine (removeOne_without hf hc hthis he).trans (congrArg some (without_congr fun j => or_congr_right ?_))
      constructor
      · exact fun hj => ⟨e,he,(htaken e he).mpr rfl,hj⟩
      · rintro ⟨m,hm,ht,hj⟩
        obtain rfl := Option.some.inj ((htaken m hm).mp ht)
        exact hj

end Removing

section Forwarding
variable {h : Heap} {gone : Nat → Prop} {this e : Nat} {p : String} {fwd : Bool}

/-- The group's own name is not removed, and ends the removal. -/
def Own (h : Heap) (p : String) (i : Nat) : Prop := nameEquals h p i = some true

theorem not_own_iff (hf : Forest h) (i : Nat) : ¬ Own h p i ↔ nameEquals h p i = some false := by
  obtain ⟨b,hb⟩ := nameEquals_ends hf p i
  unfold Own
  rw [hb]
  cases b <;> simp

/-- What `remove_i` takes out of the hierarchy. -/
def Removed (h : Heap) (p : String) (fwd : Bool) (this j : Nat) : Prop :=
  ¬ Own h p this ∧ TakenAway h.parent fwd (Taken h p) (Own h p) this j

theorem Removed.below (hr : Removed h p fwd this e) : Below h.parent e this := hr.2.below_first

theorem closed_removed (h : Heap) (p : String) (fwd : Bool) (this : Nat) : Closed h (Removed h p fwd this) :=
  fun _ _ hp hr => ⟨hr.1,hr.2.below (.single hp)⟩

theorem closed_takenHere (h : Heap) (p : String) (this : Nat) : Closed h (TakenHere h.parent (Taken h p) this) := by
  rintro j i hp ⟨m,hm,ht,hj⟩
  exact ⟨m,hm,ht,.head hp hj⟩

/-- A device has nothing to remove under it. -/
theorem not_removed_of_device (hf : Forest h) (hg : h.isGroup this ≠ true) (j : Nat) : ¬ Removed h p fwd this j := by
  rintro ⟨-,hr⟩
  obtain ⟨m,hm⟩ := hr.child
  exact hg (isGroup_of_elements ((hf.child this m).mpr hm))

/-- An element of the group goes here only when it is taken itself. -/
theorem takenHere_element (hf : Forest h) (he : h.parent e = some this) :
    TakenHere h.parent (Taken h p) this e ↔ Taken h p e := by
  constructor
  · rintro ⟨m,hm,ht,hb⟩
    rcases hb.cases he with rfl | hb
    · exact ht
    · exact absurd (.head' hm hb) (hf.acyclic m)
  · exact fun ht => ⟨e,he,ht,.refl⟩

/-- The loop over the sub-groups that are left. -/
theorem forward_without (hf : Forest h) {f : Nat} {l : List Nat} (hc : Closed h gone) (hn : l.Nodup)
    (hl : ∀ e ∈ l, h.parent e = some this) (hno : ∀ e ∈ l, ∀ j, Below h.parent j e → ¬ gone j)
    (hrec : ∀ e ∈ l, ∀ gone, Closed h gone → (∀ j, Below h.parent j e → ¬ gone j) →
      removeI p true f (h.without gone) e = some (h.without (fun j => gone j ∨ Removed h p true e j))) :
    l.foldlM (fun h e => if h.isGroup e then removeI p true f h e else some h) (h.without gone) =
      some (h.without (fun j => gone j ∨ ∃ e ∈ l, Removed h p true e j)) := by
  induction l generalizing gone with
  | nil => exact congrArg some (without_congr fun j => by simp)
  | cons e l ih =>
    rw [List.nodup_cons] at hn
    have he := hl e List.mem_cons_self
    have hstep : (if (h.without gone).isGroup e then removeI p true f (h.without gone) e else some (h.without gone)) =
        some (h.without (fun j => gone j ∨ Removed h p true e j)) := by
      rw [without_isGroup (hno e List.mem_cons_self e .refl)]
      split
      · exact hrec e List.mem_cons_self gone hc (hno e List.mem_cons_self)
      · rename_i hg
        exact congrArg some (without_congr fun j => (or_iff_left (not_removed_of_device hf hg j)).symm)
    have hrest := ih (hc.or (closed_removed h p true e)) hn.2 (fun x hx => hl x (List.mem_cons_of_mem e hx))
      (fun x hx j hj => not_or.mpr ⟨hno x (List.mem_cons_of_mem e hx) j hj,fun hr => ?_⟩)
      (fun x hx => hrec x (List.mem_cons_of_mem e hx))
    · rw [List.foldlM_cons,hstep]
      refine hrest.trans (congrArg some (without_congr fun j => ?_))
      simp only [List.exists_mem_cons_iff,or_assoc]
    · -- what was removed under another sub-group is not under this one
      have hxe := siblings_apart hf.acyclic (hl x (List.mem_cons_of_mem e hx)) he hj hr.below
      exact hn.1 (hxe ▸ hx)

theorem removeI_without (hf : Forest h) {rank : Nat → Nat} {k : Nat} (hr : Ranked rank k h) (p : String) (fwd : Bool)
    (f : Nat) (hi : k < f + rank this) (hc : Closed h gone) (hno : ∀ j, Below h.parent j this → ¬ gone j) :
    removeI p fwd f (h.without gone) this = some (h.without (fun j => gone j ∨ Removed h p fwd this j)) := by
  induction f generalizing this gone with
  | zero =>
    have := hr.most this
    omega
  | succ f ih =>
    obtain ⟨own,hown⟩ := nameEquals_ends hf p this
    rw [removeI,nameEquals_without hc p (hno this .refl),hown]
    cases own with
    | true => exact congrArg some (without_congr fun j => (or_iff_left fun hr => hr.1 hown).symm)
    | false =>
      have hnot : ¬ Own h p this := (not_own_iff hf this).mpr hown
      show (removeHere (h.without gone) this p).bind _ = _
      rw [removeHere_without hf hc hno]
      cases fwd with
      | false =>
        refine congrArg some (without_congr fun j => or_congr_right ?_)
        unfold Removed
        rw [takenAway_shallow]
        exact (and_iff_right hnot).symm
      | true =>
        have hc' := hc.or (closed_takenHere h p this)
        have hthis : ¬ (gone this ∨ TakenHere h.parent (Taken h p) this this) := by
          rintro (hg | ⟨m,hm,-,hb⟩)
          · exact hno this .refl hg
          · exact hf.acyclic m (.head' hm hb)
        have hmem : ∀ e, e ∈ (h.without (fun j => gone j ∨ TakenHere h.parent (Taken h p) this j)).elements this ↔
            h.parent e = some this ∧ ¬ Taken h p e := by
          intro e
          rw [mem_without_elements hthis,hf.child]
          refine and_congr_right fun he => ?_
          rw [takenHere_element hf he,or_iff_right (hno e (.single he))]
        refine (forward_without hf hc' ((forest_without hf hc').once this) (fun e he => ((hmem e).mp he).1)
          (fun e he j hj => ?_) fun e he gone' hc'' hno' => ?_).trans (congrArg some (without_congr fun j => ?_))
        · rintro (hg | ⟨m,hm,ht,hjm⟩)
          · exact hno j (hj.tail ((hmem e).mp he).1) hg
          · have hem := siblings_apart hf.acyclic ((hmem e).mp he).1 hm hj hjm
            exact ((hmem e).mp he).2 (hem ▸ ht)
        · have := hr.up e this ((hmem e).mp he).1
          exact ih (by omega) hc'' hno'
        · rw [or_assoc]
          refine or_congr_right ?_
          unfold Removed
          rw [and_iff_right hnot,takenAway_deep]
          simp only [hmem,and_assoc]

theorem remove_without (hf : Forest h) (this : Nat) (p : String) (fwd : Bool) :
    remove h this p fwd = some (h.without (Removed h p fwd this)) := by
  obtain ⟨rank,hr⟩ := hf.ranked
  have hi : h.next < h.fuel + rank this := by unfold Heap.fuel; omega
  have hc : Closed h (fun _ => False) := fun _ _ _ hg => hg
  have hall := removeI_without hf hr p fwd h.fuel hi hc fun _ _ => not_false
  rw [without_none] at hall
  exact hall.trans (congrArg some (without_congr fun j => or_iff_right not_false))

end Forwarding

end CppTango.Client.Group
