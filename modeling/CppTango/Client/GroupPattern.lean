import CppTango.Client.GroupRemove

namespace CppTango.Client.Group
open CppTango.Device (lowerName)
open CppTango.Lib

section Claim
variable (h : Heap) (this : Nat) (p : String) (fwd : Bool)

def contains : Option Bool := (findI h this p fwd).map Option.isSome

/-- What is meant by the pattern is removed, with all under it, and nothing else. -/
def RemovesMeant : Prop :=
  nameEquals h p this = some false →
    remove h this p fwd = some (h.without (Under h.parent fwd (Matches h p) this))

def ContainsMeant : Prop :=
  ∃ b, contains h this p fwd = some b ∧
    (b = true ↔ Matches h p this ∨ ∃ m, Concerned h fwd this m ∧ Matches h p m)

/-- The tokens stand in the name or in the fully qualified name, no one before the one in front of it. -/
def Loose (i : Nat) : Prop :=
  Strung ((tokenize p).map (List.map Char.toLower)) (lowerName (h.name i)) ∨
    ∃ fqn, getFullyQualifiedName h i = some fqn ∧
      Strung ((tokenize p).map (List.map Char.toLower)) (fqn.map Char.toLower)

/-- An element of a group that has a name beside another one that has it, too. -/
def Doubled (m : Nat) : Prop := Twins h.parent fwd (fun i => nameEquals h p i = some true) this m

/-- What is matched loosely is meant, or goes with an element that is; and no name is there twice in one group, unless
above there is an element with that name. -/
def Told : Prop :=
  if isPattern p then
    (nameEquals h p this = some false → ∀ m, Concerned h fwd this m → Loose h p m →
      Under h.parent fwd (Matches h p) this m) ∧
    (Loose h p this ∨ (∃ m, Concerned h fwd this m ∧ Loose h p m) →
      Matches h p this ∨ ∃ m, Concerned h fwd this m ∧ Matches h p m)
  else
    nameEquals h p this = some false → ∀ m, Doubled h this p fwd m →
      ∃ a, Concerned h fwd this a ∧ nameEquals h p a = some true ∧ Relation.TransGen (Up h.parent) m a

end Claim

section Searching
variable {h : Heap} {this i : Nat} {p : String} {fwd : Bool}

theorem loose_iff (hf : Forest h) : Loose h p i ↔ nameMatches h p i = some true := by
  rw [nameMatches_iff hf]
  simp only [matchTokens_iff,List.drop_zero]
  exact Iff.rfl

theorem suits_of_nameEquals (hf : Forest h) (he : nameEquals h p i = some true) : suits h p i = some true :=
  (matches_of_nameEquals hf he).suits hf

theorem no_member_of_device (hf : Forest h) (hg : h.isGroup i ≠ true) (m : Nat) : ¬ Concerned h fwd i m := by
  intro hm
  obtain ⟨c,hc⟩ := hm.child
  exact hg (isGroup_of_elements ((hf.child i c).mpr hc))

/-- What `find_i` looks at suits, when it finds something, and does not when it finds nothing. -/
structure Searched (h : Heap) (p : String) (fwd : Bool) (i : Nat) (r : Option Nat) : Prop where
  hit : r.isSome = true → suits h p i = some true ∨ ∃ m, Concerned h fwd i m ∧ suits h p m = some true
  missed : r = none → h.isGroup i = true →
    suits h p i = some false ∧ ∀ m, Concerned h fwd i m → suits h p m = some false

theorem find_searched (hf : Forest h) {rank : Nat → Nat} {k : Nat} (hr : Ranked rank k h) (p : String) (f : Nat)
    (fwd : Bool) (i : Nat) (hi : k < f + rank i) : ∃ r, find h p f fwd i = some r ∧ Searched h p fwd i r := by
  induction f generalizing fwd i with
  | zero =>
    have := hr.most i
    omega
  | succ f ih =>
    by_cases hg : h.isGroup i = true
    · obtain ⟨own,hown⟩ := suits_ends hf p i
      cases own with
      | true => exact ⟨some i,find_own hg hown,fun _ => .inl hown,nofun⟩
      | false =>
        obtain ⟨direct,hdirect,hin,hnone⟩ := firstThat_ends (l := h.elements i) (fun e _ => suits_ends hf p e)
        have hchild : ∀ e, e ∈ h.elements i ↔ h.parent e = some i := hf.child i
        have hmember : ∀ e, h.parent e = some i → Concerned h fwd i e := fun e he => ⟨i,.root,he⟩
        cases direct with
        | some e =>
          obtain ⟨he,hse⟩ := hin e rfl
          exact ⟨some e,find_direct hg hown hdirect,fun _ => .inr ⟨e,hmember e ((hchild e).mp he),hse⟩,nofun⟩
        | none =>
          have hnone := hnone rfl
          cases fwd with
          | false =>
            refine ⟨none,find_forward hg hown hdirect,nofun,fun _ _ => ⟨hown,fun m hm => ?_⟩⟩
            exact hnone m ((hchild m).mpr (member_shallow.mp hm))
          | true =>
            have hdown : ∀ e ∈ h.elements i, ∃ r, find h p f true e = some r ∧ Searched h p true e r := by
              intro e he
              have := hr.up e i ((hchild e).mp he)
              exact ih true e (by omega)
            obtain ⟨r,hres,hin',hnone'⟩ := firstAnswer_ends (f := find h p f true) (l := h.elements i)
              (fun e he => (hdown e he).imp fun _ hd => hd.1)
            refine ⟨r,(find_forward hg hown hdirect).trans hres,fun hs => ?_,fun hn _ => ⟨hown,fun m hm => ?_⟩⟩
            · obtain ⟨x,rfl⟩ := Option.isSome_iff_exists.mp hs
              obtain ⟨e,he,hfe⟩ := hin' x rfl
              obtain ⟨r,hre,hse⟩ := hdown e he
              cases hre.symm.trans hfe
              rcases hse.hit rfl with hse | ⟨m,hm,hsm⟩
              · exact .inr ⟨e,hmember e ((hchild e).mp he),hse⟩
              · exact .inr ⟨m,member_deep.mpr (.inr ⟨e,(hchild e).mp he,hm⟩),hsm⟩
            · rcases member_deep.mp hm with hm | ⟨e,he,hm⟩
              · exact hnone m ((hchild m).mpr hm)
              · obtain ⟨r,hre,hse⟩ := hdown e ((hchild e).mpr he)
                have hrn : r = none := Option.some.inj (hre.symm.trans (hnone' hn e ((hchild e).mpr he)))
                by_cases hge : h.isGroup e = true
                · exact (hse.missed hrn hge).2 m hm
                · exact absurd hm (no_member_of_device hf hge m)
    · obtain ⟨own,hown⟩ := nameEquals_ends hf p i
      refine ⟨_,find_device hg hown,fun hs => ?_,fun _ ht => absurd ht hg⟩
      cases own with
      | true => exact .inl (suits_of_nameEquals hf hown)
      | false => cases hs

theorem contains_iff (hf : Forest h) (hg : h.isGroup this = true) (p : String) (fwd : Bool) :
    ∃ b, contains h this p fwd = some b ∧
      (b = true ↔ suits h p this = some true ∨ ∃ m, Concerned h fwd this m ∧ suits h p m = some true) := by
  obtain ⟨rank,hr⟩ := hf.ranked
  obtain ⟨r,hfind,hs⟩ := find_searched hf hr p h.fuel fwd this (by unfold Heap.fuel; omega)
  refine ⟨r.isSome,by unfold contains findI; rw [hfind]; rfl,hs.hit,fun hsuit => ?_⟩
  by_contra hn
  obtain ⟨hthis,hms⟩ := hs.missed (by simpa using hn) hg
  rcases hsuit with hsuit | ⟨m,hm,hsuit⟩
  · cases hthis.symm.trans hsuit
  · cases (hms m hm).symm.trans hsuit

end Searching

section Exact
variable {h : Heap} {this : Nat} {p : String} {fwd : Bool}

theorem without_inj {gone gone' : Nat → Prop} (hg : ∀ i, gone i → ∃ j, h.parent i = some j)
    (hg' : ∀ i, gone' i → ∃ j, h.parent i = some j) : h.without gone = h.without gone' ↔ ∀ i, gone i ↔ gone' i := by
  refine ⟨fun he i => ?_,without_congr⟩
  have hcells : (h.without gone).cells i = (h.without gone').cells i := by rw [he]
  -- an element with a parent is there, so that its cell tells whether it is gone
  by_cases hi : gone i <;> by_cases hi' : gone' i
  · exact iff_of_true hi hi'
  · obtain ⟨j,hj⟩ := hg i hi
    rw [cells_without_of_gone hi,cells_without hi'] at hcells
    exact absurd (Option.map_eq_none_iff.mp hcells.symm) (live_of_parent hj)
  · obtain ⟨j,hj⟩ := hg' i hi'
    rw [cells_without hi,cells_without_of_gone hi'] at hcells
    exact absurd (Option.map_eq_none_iff.mp hcells) (live_of_parent hj)
  · exact iff_of_false hi hi'

theorem removesMeant_iff (hf : Forest h) : RemovesMeant h this p fwd ↔ (nameEquals h p this = some false →
    ∀ j, TakenAway h.parent fwd (Taken h p) (Own h p) this j ↔ Under h.parent fwd (Matches h p) this j) := by
  refine imp_congr_right fun hown => ?_
  have hnot : ¬ Own h p this := (not_own_iff hf this).mpr hown
  have hparent : ∀ {hit : Nat → Prop} (i), Under h.parent fwd hit this i → ∃ j, h.parent i = some j :=
    fun i hu => hu.has_parent
  rw [remove_without hf,Option.some.injEq,without_inj (fun i hi => hparent i (hi.2.under fun _ ht => ht)) hparent]
  refine forall_congr' fun j => ?_
  unfold Removed
  rw [and_iff_right hnot]

theorem taken_pattern (hp : isPattern p = true) (m : Nat) : Taken h p m ↔ nameMatches h p m = some true := by
  unfold Taken
  rw [if_pos hp]

theorem taken_plain (hp : isPattern p = false) {m g : Nat} (hm : h.parent m = some g) :
    Taken h p m ↔ firstThat (nameEquals h p) (h.elements g) = some (some m) := by
  unfold Taken
  simp only [hp,Bool.false_eq_true,if_false,hm,Option.some.injEq,exists_eq_left']

theorem removes_pattern_iff (hf : Forest h) (hp : isPattern p = true) :
    (∀ j, TakenAway h.parent fwd (Taken h p) (Own h p) this j ↔ Under h.parent fwd (Matches h p) this j) ↔
      ∀ m, Concerned h fwd this m → Loose h p m → Under h.parent fwd (Matches h p) this m := by
  have hmatch : ∀ m, Matches h p m → Taken h p m := fun m hm => (taken_pattern hp m).mpr (hm.nameMatches hf)
  have hown : ∀ m, Own h p m → Taken h p m := fun m hm => hmatch m (matches_of_nameEquals hf hm)
  rw [takenAway_exact_iff hown hmatch]
  simp only [taken_pattern hp,loose_iff hf]
  exact Iff.rfl

theorem removes_plain_iff (hf : Forest h) (hp : isPattern p = false) :
    (∀ j, TakenAway h.parent fwd (Taken h p) (Own h p) this j ↔ Under h.parent fwd (Matches h p) this j) ↔
      ∀ m, Doubled h this p fwd m →
        ∃ a, Concerned h fwd this a ∧ nameEquals h p a = some true ∧ Relation.TransGen (Up h.parent) m a := by
  have hmatch : Matches h p = Own h p := funext fun m => propext (matches_plain hf hp)
  have hfirst : ∀ g, ∃ r, firstThat (nameEquals h p) (h.elements g) = some r ∧
      (∀ m ∈ r, m ∈ h.elements g ∧ nameEquals h p m = some true) ∧
      (r = none → ∀ m ∈ h.elements g, nameEquals h p m = some false) :=
    fun g => firstThat_ends fun m _ => nameEquals_ends hf p m
  rw [hmatch]
  refine takenAway_one_iff hf.acyclic (fun m ht => ?_) (fun g m hm hown => ?_) fun g m m' hm hm' ht ht' => ?_
  · have ht' := ht
    unfold Taken at ht'
    rw [if_neg (by simp [hp])] at ht'
    obtain ⟨g,-,hg⟩ := ht'
    obtain ⟨r,hr,hin,-⟩ := hfirst g
    exact (hin m (Option.some.inj (hr.symm.trans hg))).2
  · obtain ⟨r,hr,hin,hnone⟩ := hfirst g
    cases r with
    | none => cases (hnone rfl m ((hf.child g m).mpr hm)).symm.trans hown
    | some m' =>
      have hm' := (hf.child g m').mp (hin m' rfl).1
      exact ⟨m',hm',(taken_plain hp hm').mpr hr⟩
  · rw [taken_plain hp hm] at ht
    rw [taken_plain hp hm'] at ht'
    exact Option.some.inj (Option.some.inj (ht.symm.trans ht'))

theorem containsMeant_iff (hf : Forest h) (hg : h.isGroup this = true) : ContainsMeant h this p fwd ↔
    (suits h p this = some true ∨ (∃ m, Concerned h fwd this m ∧ suits h p m = some true) →
      Matches h p this ∨ ∃ m, Concerned h fwd this m ∧ Matches h p m) := by
  obtain ⟨b,hb,hiff⟩ := contains_iff hf hg p fwd
  unfold ContainsMeant
  rw [hb,← hiff]
  simp only [Option.some.injEq,exists_eq_left']
  refine ⟨Iff.mp,fun h => ⟨h,?_⟩⟩
  rw [hiff]
  rintro (hm | ⟨m,hm,hmm⟩)
  · exact .inl (hm.suits hf)
  · exact .inr ⟨m,hm,hmm.suits hf⟩

theorem suits_pattern (hf : Forest h) (hp : isPattern p = true) (i : Nat) :
    suits h p i = some true ↔ Loose h p i := by
  unfold suits
  rw [if_pos hp,loose_iff hf]

theorem suits_plain (hf : Forest h) (hp : isPattern p = false) (i : Nat) :
    suits h p i = some true ↔ Matches h p i := by
  unfold suits
  rw [hp,if_neg Bool.false_ne_true,matches_plain hf hp]

/-- The names mean what they say exactly when nothing is matched loosely only, and no name is removed once that is there
twice. The group itself is never removed. -/
theorem names_meant_iff (hf : Forest h) (hg : h.isGroup this = true) :
    ((RemovesMeant h this p fwd ∧ ContainsMeant h this p fwd) ↔ Told h this p fwd) ∧
      (nameEquals h p this = some true → remove h this p fwd = some h) := by
  refine ⟨?_,fun hown => ?_⟩
  · rw [removesMeant_iff hf,containsMeant_iff hf hg]
    unfold Told
    cases hp : isPattern p with
    | true =>
      rw [if_pos rfl]
      simp only [removes_pattern_iff hf hp,suits_pattern hf hp]
    | false =>
      rw [if_neg Bool.false_ne_true]
      simp only [removes_plain_iff hf hp,suits_plain hf hp]
      exact and_iff_left fun hm => hm
  · rw [remove_without hf]
    refine congrArg some (Eq.trans (without_congr fun j => ?_) (without_none h))
    exact iff_of_false (fun hr => hr.1 hown) not_false

end Exact

section Gauges

/-- A group of one gauge. -/
def gauges : Heap where
  cells i := if i = 0 then some ⟨"gauges",none,some [1]⟩ else if i = 1 then some ⟨"cell/gauge/1",some 0,none⟩ else none
  next := 2

theorem gauges_parent {a b : Nat} : gauges.parent a = some b ↔ a = 1 ∧ b = 0 := by
  rcases a with _ | _ | a
  · simp [Heap.parent,gauges]
  · simp [Heap.parent,gauges,eq_comm]
  · simp [Heap.parent,gauges]

theorem forest_gauges : Forest gauges where
  inside i hi := by
    rcases i with _ | _ | i
    · decide
    · decide
    · exact absurd (by simp [gauges]) hi
  child i j := by
    rw [gauges_parent]
    rcases i with _ | _ | i
    · simp [Heap.elements,gauges]
    · simp [Heap.elements,gauges]
    · simp [Heap.elements,gauges]
  once i := by
    rcases i with _ | _ | i
    · simp [Heap.elements,gauges]
    · simp [Heap.elements,gauges]
    · simp [Heap.elements,gauges]
  acyclic a hc := by
    obtain ⟨b,hab,-⟩ := Relation.TransGen.head'_iff.mp hc
    obtain ⟨c,-,hca⟩ := Relation.TransGen.tail'_iff.mp hc
    have ha := (gauges_parent.mp hab).1
    have ha' := (gauges_parent.mp hca).2
    omega

theorem names_meant_iff_gauges :
    ((RemovesMeant gauges 0 "cell/*" true ∧ ContainsMeant gauges 0 "cell/*" true) ↔ Told gauges 0 "cell/*" true) ∧
      (nameEquals gauges "cell/*" 0 = some true → remove gauges 0 "cell/*" true = some gauges) :=
  names_meant_iff forest_gauges (by decide)

theorem Spells.length_le {p : String} {n : List Char} (h : Spells p n) :
    (p.toList.filter (· ≠ '*')).length ≤ n.length := by
  obtain ⟨n',hs,hn⟩ := h
  have hlen := congrArg List.length hn
  rw [List.length_map,List.length_map] at hlen
  exact hlen ▸ hs.length_le

theorem Spells.head {p : String} {n rest : List Char} {c : Char} (h : Spells p n) (hp : p.toList = c :: rest)
    (hc : c ≠ '*') : (n.map Char.toLower).head? = some c.toLower := by
  obtain ⟨n',hs,hn⟩ := h
  rw [hp] at hs
  rw [← hn,List.head?_map,hs.head hc]
  rfl

/-- One name is too short, and the others begin in another way. -/
theorem gauges_not_meant {i : Nat} (hi : i ≤ 1) : ¬ Matches gauges "cell/gauge/1*1" i := by
  have hhead : ∀ {n}, Spells "cell/gauge/1*1" n → (n.map Char.toLower).head? = some 'c' :=
    fun hs => hs.head rfl (by decide)
  obtain rfl | rfl : i = 0 ∨ i = 1 := by omega
  · rintro (hs | ⟨fqn,hfqn,hs⟩)
    · exact absurd (hhead hs) (by decide)
    · have hname : getFullyQualifiedName gauges 0 = some "gauges".toList := by decide
      obtain rfl := Option.some.inj (hname.symm.trans hfqn)
      exact absurd (hhead hs) (by decide)
  · rintro (hs | ⟨fqn,hfqn,hs⟩)
    · exact absurd hs.length_le (by decide)
    · have hname : getFullyQualifiedName gauges 1 = some "gauges.cell/gauge/1".toList := by decide
      obtain rfl := Option.some.inj (hname.symm.trans hfqn)
      exact absurd (hhead hs) (by decide)

/-- The last piece is found inside the first one. -/
theorem gauge_found_twice : ¬ RemovesMeant gauges 0 "cell/gauge/1*1" true ∧
    ¬ ContainsMeant gauges 0 "cell/gauge/1*1" true := by
  constructor
  · intro h
    have hr := h (by decide)
    have hgone : (remove gauges 0 "cell/gauge/1*1" true).bind (·.cells 1) = none := by decide
    have hstays : ¬ Under gauges.parent true (Matches gauges "cell/gauge/1*1") 0 1 := by
      rintro ⟨m,⟨g,-,hg⟩,hm,-⟩
      exact gauges_not_meant (gauges_parent.mp hg).1.le hm
    rw [hr,Option.bind_some,cells_without hstays] at hgone
    cases hgone
  · rintro ⟨b,hb,hiff⟩
    have hfound : contains gauges 0 "cell/gauge/1*1" true = some true := by decide
    obtain rfl := Option.some.inj (hfound.symm.trans hb)
    rcases hiff.mp rfl with hm | ⟨m,⟨g,-,hg⟩,hm⟩
    · exact gauges_not_meant (Nat.zero_le 1) hm
    · exact gauges_not_meant (gauges_parent.mp hg).1.le hm

end Gauges

end CppTango.Client.Group
