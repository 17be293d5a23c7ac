import CppTango.Lib.Trees

namespace CppTango.Lib

variable {α : Type}

section Walk
variable (up : α → Option α)

/-- The node, or one that it is under. -/
def Below (a b : α) : Prop := Relation.ReflTransGen (Up up) a b

/-- The nodes whose children a walk looks at: the first one and, when it goes on, all under it. -/
inductive Reached (deep : Bool) (t : α) : α → Prop
  | root : Reached deep t t
  | down {g e : α} (hd : deep = true) (h : Reached deep t g) (he : up e = some g) : Reached deep t e

/-- The nodes whose children are looked at by a walk that takes nodes away: it goes on neither to these nor to the
blocked ones. -/
inductive Visited (deep : Bool) (taken blocked : α → Prop) (t : α) : α → Prop
  | root : Visited deep taken blocked t t
  | down {g e : α} (hd : deep = true) (h : Visited deep taken blocked t g) (he : up e = some g) (ht : ¬ taken e)
      (hb : ¬ blocked e) : Visited deep taken blocked t e

def Member (deep : Bool) (t m : α) : Prop := ∃ g, Reached up deep t g ∧ up m = some g

/-- The members with a property, with all under them. -/
def Under (deep : Bool) (hit : α → Prop) (t j : α) : Prop := ∃ m, Member up deep t m ∧ hit m ∧ Below up j m

/-- What goes with the nodes that the walk takes away. -/
def TakenAway (deep : Bool) (taken blocked : α → Prop) (t j : α) : Prop :=
  ∃ g m, Visited up deep taken blocked t g ∧ up m = some g ∧ taken m ∧ Below up j m

end Walk

section Exact
variable {up : α → Option α} {deep : Bool} {taken blocked hit : α → Prop} {t g m j a : α}

theorem Reached.to_below (h : Reached up deep t g) : Below up g t := by
  induction h with
  | root => exact .refl
  | down _ _ he ih => exact .head he ih

theorem Visited.reached (h : Visited up deep taken blocked t g) : Reached up deep t g := by
  induction h with
  | root => exact .root
  | down hd _ he _ _ ih => exact .down hd ih he

/-- The first node is not under a member. -/
theorem Member.not_below (hup : Acyclic up) (h : Member up deep t a) : ¬ Below up t a := by
  obtain ⟨g,hg,ha⟩ := h
  exact fun ht => hup a (.head' ha (hg.to_below.trans ht))

theorem Below.cases (h : Below up g a) (hg : up g = some j) : g = a ∨ Below up j a := by
  rcases Relation.ReflTransGen.cases_head h with he | ⟨c,hgc,hca⟩
  · exact .inl he
  · rw [Option.some.inj (hg.symm.trans hgc)]
    exact .inr hca

/-- A walk gets to the nodes that are under no member that it takes away or that is blocked. -/
theorem visited_iff (hup : Acyclic up) : Visited up deep taken blocked t g ↔
    Reached up deep t g ∧ ∀ a, Member up deep t a → Below up g a → ¬ taken a ∧ ¬ blocked a := by
  constructor
  · intro h
    refine ⟨h.reached,?_⟩
    induction h with
    | root => exact fun a hm hb => absurd hb (hm.not_below hup)
    | down _ _ he ht hbl ih =>
      intro a hm hb
      rcases hb.cases he with rfl | hb
      · exact ⟨ht,hbl⟩
      · exact ih a hm hb
  · rintro ⟨h,hfree⟩
    induction h with
    | root => exact .root
    | @down g e hd h he ih =>
      obtain ⟨ht,hb⟩ := hfree e ⟨g,h,he⟩ .refl
      exact .down hd (ih fun a hm hga => hfree a hm (.head he hga)) he ht hb

/-- A node that is reached is visited, or it is taken away. -/
theorem Reached.visited_or (hb : ∀ g m, Visited up deep taken blocked t g → up m = some g → blocked m → taken m)
    (h : Reached up deep t j) : Visited up deep taken blocked t j ∨ TakenAway up deep taken blocked t j := by
  induction h with
  | root => exact .inl .root
  | @down g e hd h he ih =>
    rcases ih with hv | ⟨g',m,hg',hm,ht,hgm⟩
    · by_cases ht : taken e
      · exact .inr ⟨g,e,hv,he,ht,.refl⟩
      · exact .inl (.down hd hv he ht fun hbl => ht (hb g e hv he hbl))
    · exact .inr ⟨g',m,hg',hm,ht,.head he hgm⟩

theorem TakenAway.below (h : TakenAway up deep taken blocked t m) (hj : Below up j m) :
    TakenAway up deep taken blocked t j := by
  obtain ⟨g',m',hg',hm',ht,hmm⟩ := h
  exact ⟨g',m',hg',hm',ht,hj.trans hmm⟩

/-- Members that would be taken away are, or are under another one. -/
theorem Member.takenAway (hb : ∀ g m, Visited up deep taken blocked t g → up m = some g → blocked m → taken m)
    (hv : ∀ g, Visited up deep taken blocked t g → up m = some g → taken m) (h : Member up deep t m) :
    TakenAway up deep taken blocked t m := by
  obtain ⟨g,hg,hm⟩ := h
  rcases hg.visited_or hb with hg | ht
  · exact ⟨g,m,hg,hm,hv g hg hm,.refl⟩
  · exact ht.below (.single hm)

theorem TakenAway.under (ht : ∀ m, taken m → hit m) (h : TakenAway up deep taken blocked t j) :
    Under up deep hit t j := by
  obtain ⟨g,m,hg,hm,htm,hj⟩ := h
  exact ⟨m,⟨g,hg.reached,hm⟩,ht m htm,hj⟩

/-- When nothing else is blocked, all members to take away go. -/
theorem takenAway_iff_under (hb : ∀ m, blocked m → taken m) :
    TakenAway up deep taken blocked t j ↔ Under up deep taken t j := by
  refine ⟨TakenAway.under fun _ h => h,?_⟩
  rintro ⟨m,hm,ht,hj⟩
  exact (hm.takenAway (fun _ m _ _ => hb m) fun _ _ _ => ht).below hj

/-- All members that can be taken away go, and only the hit ones should. -/
theorem takenAway_exact_iff (hb : ∀ m, blocked m → taken m) (hh : ∀ m, hit m → taken m) :
    (∀ j, TakenAway up deep taken blocked t j ↔ Under up deep hit t j) ↔
      ∀ m, Member up deep t m → taken m → Under up deep hit t m := by
  simp only [takenAway_iff_under hb]
  constructor
  · exact fun h m hm ht => (h m).mp ⟨m,hm,ht,.refl⟩
  · refine fun h j => ⟨?_,?_⟩
    · rintro ⟨m,hm,ht,hj⟩
      obtain ⟨m',hm',hh',hmm⟩ := h m hm ht
      exact ⟨m',hm',hh',hj.trans hmm⟩
    · rintro ⟨m,hm,hhm,hj⟩
      exact ⟨m,hm,hh m hhm,hj⟩

/-- Two hit members that have the same parent. -/
def Twins (up : α → Option α) (deep : Bool) (hit : α → Prop) (t m : α) : Prop :=
  Member up deep t m ∧ hit m ∧ ∃ m', m' ≠ m ∧ up m' = up m ∧ hit m'

/-- One hit member of each parent goes, and all should. -/
theorem takenAway_one_iff (hup : Acyclic up) (hh : ∀ m, taken m → hit m)
    (hone : ∀ g m, up m = some g → hit m → ∃ m', up m' = some g ∧ taken m')
    (hsame : ∀ g m m', up m = some g → up m' = some g → taken m → taken m' → m = m') :
    (∀ j, TakenAway up deep taken hit t j ↔ Under up deep hit t j) ↔
      ∀ m, Twins up deep hit t m → ∃ a, Member up deep t a ∧ hit a ∧ Relation.TransGen (Up up) m a := by
  constructor
  · intro h m htw
    by_contra hno
    obtain ⟨⟨g,hg,hm⟩,hhm,m',hne,hm',hhm'⟩ := htw
    have hv : Visited up deep taken hit t g := (visited_iff hup).mpr ⟨hg,fun a ha hga => by
      have hna : ¬ hit a := fun hha => hno ⟨a,ha,hha,.head' hm hga⟩
      exact ⟨fun hta => hna (hh a hta),hna⟩⟩
    -- nothing above the group is taken away, so that each of the two goes by itself
    have htaken : ∀ x, up x = some g → hit x → taken x := by
      intro x hx hhx
      obtain ⟨g',y,hg',hy,hty,hxy⟩ := (h x).mpr ⟨x,⟨g,hg,hx⟩,hhx,.refl⟩
      rcases hxy.cases hx with rfl | hgy
      · exact hty
      · exact absurd hty (((visited_iff hup).mp hv).2 y ⟨g',hg'.reached,hy⟩ hgy).1
    exact hne (hsame g m' m (hm'.trans hm) hm (htaken m' (hm'.trans hm) hhm') (htaken m hm hhm))
  · intro h
    have hv : ∀ g m, Visited up deep taken hit t g → up m = some g → hit m → taken m := by
      intro g m hg hm hhm
      obtain ⟨m',hm',ht⟩ := hone g m hm hhm
      by_cases he : m' = m
      · exact he ▸ ht
      · obtain ⟨a,ha,hha,hma⟩ := h m ⟨⟨g,hg.reached,hm⟩,hhm,m',he,hm'.trans hm.symm,hh m' ht⟩
        obtain ⟨c,hmc,hca⟩ := Relation.TransGen.head'_iff.mp hma
        have hgc : g = c := Option.some.inj (hm.symm.trans hmc)
        exact absurd hha (((visited_iff hup).mp hg).2 a ha (hgc ▸ hca)).2
    refine fun j => ⟨TakenAway.under hh,?_⟩
    rintro ⟨m,hm,hhm,hj⟩
    exact (hm.takenAway hv fun g hg hgm => hv g m hg hgm hhm).below hj

end Exact

section Steps
variable {up : α → Option α} {deep : Bool} {taken blocked : α → Prop} {t g m e j : α}

/-- What goes with the children of one node that are taken away. -/
def TakenHere (up : α → Option α) (taken : α → Prop) (t j : α) : Prop := ∃ m, up m = some t ∧ taken m ∧ Below up j m

/-- A walk goes from the first node to one of its children. -/
theorem Visited.first (h : Visited up deep taken blocked t g) : g = t ∨ deep = true ∧
    ∃ e, up e = some t ∧ ¬ taken e ∧ ¬ blocked e ∧ Visited up deep taken blocked e g := by
  induction h with
  | root => exact .inl rfl
  | @down g e hd h he ht hb ih =>
    rcases ih with rfl | ⟨-,c,hc,htc,hbc,hv⟩
    · exact .inr ⟨hd,e,he,ht,hb,.root⟩
    · exact .inr ⟨hd,c,hc,htc,hbc,.down hd hv he ht hb⟩

theorem Visited.next (hd : deep = true) (he : up e = some t) (ht : ¬ taken e) (hb : ¬ blocked e)
    (h : Visited up deep taken blocked e g) : Visited up deep taken blocked t g := by
  induction h with
  | root => exact .down hd .root he ht hb
  | down hd _ he' ht' hb' ih => exact .down hd ih he' ht' hb'

theorem takenAway_shallow : TakenAway up false taken blocked t j ↔ TakenHere up taken t j := by
  constructor
  · rintro ⟨g,m,hg,hm,ht,hj⟩
    obtain rfl : g = t := hg.first.resolve_right fun h => Bool.false_ne_true h.1
    exact ⟨m,hm,ht,hj⟩
  · rintro ⟨m,hm,ht,hj⟩
    exact ⟨t,m,.root,hm,ht,hj⟩

/-- What goes at the first node, and in the walks from its children that are left. -/
theorem takenAway_deep : TakenAway up true taken blocked t j ↔ TakenHere up taken t j ∨
    ∃ e, up e = some t ∧ ¬ taken e ∧ ¬ blocked e ∧ TakenAway up true taken blocked e j := by
  constructor
  · rintro ⟨g,m,hg,hm,ht,hj⟩
    rcases hg.first with rfl | ⟨-,e,he,hte,hbe,hv⟩
    · exact .inl ⟨m,hm,ht,hj⟩
    · exact .inr ⟨e,he,hte,hbe,g,m,hv,hm,ht,hj⟩
  · rintro (⟨m,hm,ht,hj⟩ | ⟨e,he,hte,hbe,g,m,hv,hm,ht,hj⟩)
    · exact ⟨t,m,.root,hm,ht,hj⟩
    · exact ⟨g,m,hv.next rfl he hte hbe,hm,ht,hj⟩

theorem TakenAway.child (h : TakenAway up deep taken blocked t j) : ∃ m, up m = some t := by
  obtain ⟨g,m,hg,hm,-⟩ := h
  rcases hg.first with rfl | ⟨-,e,he,-⟩
  · exact ⟨m,hm⟩
  · exact ⟨e,he⟩

theorem TakenAway.below_first (h : TakenAway up deep taken blocked t j) : Below up j t := by
  obtain ⟨g,m,hg,hm,-,hj⟩ := h
  exact hj.trans (.head hm hg.reached.to_below)

theorem Reached.first (h : Reached up deep t g) :
    g = t ∨ deep = true ∧ ∃ e, up e = some t ∧ Reached up deep e g := by
  induction h with
  | root => exact .inl rfl
  | @down g e hd h he ih =>
    rcases ih with rfl | ⟨-,c,hc,hr⟩
    · exact .inr ⟨hd,e,he,.root⟩
    · exact .inr ⟨hd,c,hc,.down hd hr he⟩

theorem Reached.next (hd : deep = true) (he : up e = some t) (h : Reached up deep e g) : Reached up deep t g := by
  induction h with
  | root => exact .down hd .root he
  | down hd _ he' ih => exact .down hd ih he'

theorem member_shallow : Member up false t m ↔ up m = some t := by
  constructor
  · rintro ⟨g,hg,hm⟩
    rcases hg.first with rfl | ⟨hd,-⟩
    · exact hm
    · cases hd
  · exact fun hm => ⟨t,.root,hm⟩

theorem member_deep : Member up true t m ↔ up m = some t ∨ ∃ e, up e = some t ∧ Member up true e m := by
  constructor
  · rintro ⟨g,hg,hm⟩
    rcases hg.first with rfl | ⟨-,e,he,hr⟩
    · exact .inl hm
    · exact .inr ⟨e,he,g,hr,hm⟩
  · rintro (hm | ⟨e,he,g,hg,hm⟩)
    · exact ⟨t,.root,hm⟩
    · exact ⟨g,hg.next rfl he,hm⟩

theorem Member.child (h : Member up deep t m) : ∃ c, up c = some t := by
  obtain ⟨g,hg,hm⟩ := h
  rcases hg.first with rfl | ⟨-,e,he,-⟩
  · exact ⟨m,hm⟩
  · exact ⟨e,he⟩

theorem Under.has_parent {hit : α → Prop} (h : Under up deep hit t j) : ∃ i, up j = some i := by
  obtain ⟨m,⟨g,-,hm⟩,-,hj⟩ := h
  rcases Relation.ReflTransGen.cases_head hj with rfl | ⟨c,hjc,-⟩
  · exact ⟨g,hm⟩
  · exact ⟨c,hjc⟩

/-- Children of one node have nothing under them in common. -/
theorem siblings_apart (hup : Acyclic up) (he : up e = some t) (hm : up m = some t) (hje : Below up j e)
    (hjm : Below up j m) : e = m := by
  have hnot : ∀ c, up c = some t → ¬ Below up t c := fun c hc ht => hup c (.head' hc ht)
  induction hje using Relation.ReflTransGen.head_induction_on with
  | refl => exact (hjm.cases he).resolve_right (hnot m hm)
  | head hab hbe ih =>
    rcases hjm.cases hab with rfl | hb
    · obtain rfl := Option.some.inj (hm.symm.trans hab)
      exact absurd hbe (hnot e he)
    · exact ih hb

end Steps

end CppTango.Lib
