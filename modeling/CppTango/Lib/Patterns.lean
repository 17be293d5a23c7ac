import CppTango.Lib.Text

namespace CppTango.Lib

section StarPatterns
variable {α β : Type}

/-- A pattern with some text in the place of each star. -/
inductive Stars (star : α) : List α → List α → Prop
  | nil : Stars star [] []
  | same {c : α} {p n : List α} (hc : c ≠ star) (h : Stars star p n) : Stars star (c :: p) (c :: n)
  | any {p n : List α} (x : List α) (h : Stars star p n) : Stars star (star :: p) (x ++ n)

/-- The pieces stand in a text, none of them before the one in front of it; they may lie over each other. -/
def Strung : List (List α) → List α → Prop
  | [],_ => True
  | t :: ts,s => ∃ i, t <+: s.drop i ∧ Strung ts (s.drop i)

section Order
variable {t : List α} {ts us : List (List α)} {s : List α}

theorem Strung.of_drop {i : Nat} (h : Strung ts (s.drop i)) : Strung ts s := by
  cases ts with
  | nil => trivial
  | cons t ts =>
    obtain ⟨j,ht,hts⟩ := h
    rw [List.drop_drop] at ht hts
    exact ⟨i + j,ht,hts⟩

theorem Strung.of_drop_le {i j : Nat} (hij : i ≤ j) (h : Strung ts (s.drop j)) : Strung ts (s.drop i) := by
  apply Strung.of_drop (i := j - i)
  rwa [List.drop_drop,Nat.add_sub_cancel' hij]

theorem Strung.tail (h : Strung (t :: ts) s) : Strung ts s := by
  obtain ⟨i,-,hts⟩ := h
  exact hts.of_drop

theorem Strung.of_append (h : Strung (ts ++ us) s) : Strung ts s := by
  induction ts generalizing s with
  | nil => trivial
  | cons t ts ih =>
    obtain ⟨i,ht,hts⟩ := h
    exact ⟨i,ht,ih hts⟩

theorem Strung.map (f : α → β) (h : Strung ts s) : Strung (ts.map (List.map f)) (s.map f) := by
  induction ts generalizing s with
  | nil => trivial
  | cons t ts ih =>
    obtain ⟨i,ht,hts⟩ := h
    refine ⟨i,?_,?_⟩
    · rw [← List.map_drop]
      exact ht.map f
    · rw [← List.map_drop]
      exact ih hts

section First
variable [DecidableEq α]

theorem find_drop {i : Nat} (h : find t s = some i) : t <+: s.drop i := by
  induction s generalizing i with
  | nil =>
    rw [find] at h
    split at h
    · rename_i ht
      rw [ht]
      exact List.nil_prefix
    · cases h
  | cons a s ih =>
    rw [find] at h
    split at h
    · rename_i ht
      cases h
      exact ht
    · obtain ⟨j,hj,rfl⟩ := Option.map_eq_some_iff.mp h
      rw [List.drop_succ_cons]
      exact ih hj

/-- What stands somewhere is found there or before. -/
theorem find_le {j : Nat} (h : t <+: s.drop j) : ∃ i, find t s = some i ∧ i ≤ j := by
  induction s generalizing j with
  | nil =>
    rw [List.drop_nil,List.prefix_nil] at h
    exact ⟨0,if_pos h,Nat.zero_le j⟩
  | cons a s ih =>
    rw [find]
    by_cases ht : t <+: a :: s
    · exact ⟨0,if_pos ht,Nat.zero_le j⟩
    · cases j with
      | zero => exact absurd h ht
      | succ j =>
        obtain ⟨i,hi,hle⟩ := ih h
        refine ⟨i + 1,?_,Nat.succ_le_succ hle⟩
        rw [if_neg ht,hi]
        rfl

/-- It is enough to look for a piece at its first place. -/
theorem strung_cons_iff : Strung (t :: ts) s ↔ ∃ i, find t s = some i ∧ Strung ts (s.drop i) := by
  constructor
  · rintro ⟨j,ht,hts⟩
    obtain ⟨i,hi,hle⟩ := find_le ht
    exact ⟨i,hi,hts.of_drop_le hle⟩
  · rintro ⟨i,hi,hts⟩
    exact ⟨i,find_drop hi,hts⟩

end First

end Order

section Pieces
variable [DecidableEq α] {star : α} {p n : List α}

/-- The pieces between the stars stand in the text, the first one at its begin. -/
theorem Stars.splitOn (h : Stars star p n) :
    ∃ t ts, p.splitOn star = t :: ts ∧ t <+: n ∧ Strung ts n := by
  induction h with
  | nil => exact ⟨[],[],List.splitOn_nil ..,List.nil_prefix,trivial⟩
  | @same c p n hc _ ih =>
    obtain ⟨t,ts,hs,ht,hts⟩ := ih
    refine ⟨c :: t,ts,?_,List.cons_prefix_cons.mpr ⟨rfl,ht⟩,?_⟩
    · rw [List.splitOn_cons_eq_if_modifyHead,hs]
      simp [hc]
    · exact Strung.of_drop (i := 1) hts
  | @any p n x _ ih =>
    obtain ⟨t,ts,hs,ht,hts⟩ := ih
    refine ⟨[],t :: ts,?_,List.nil_prefix,x.length,?_,?_⟩
    · rw [List.splitOn_cons_eq_if_modifyHead,hs]
      simp
    · rw [List.drop_left]
      exact ht
    · rw [List.drop_left]
      exact hts

theorem Stars.strung (h : Stars star p n) : Strung (p.splitOn star) n := by
  obtain ⟨t,ts,hs,ht,hts⟩ := h.splitOn
  rw [hs]
  exact ⟨0,ht,hts⟩

omit [DecidableEq α] in
/-- A text without stars stands for itself only. -/
theorem stars_plain (h : star ∉ p) : Stars star p n ↔ n = p := by
  constructor
  · intro hs
    induction hs with
    | nil => rfl
    | same _ _ ih => rw [ih fun hm => h (List.mem_cons_of_mem _ hm)]
    | any _ _ _ => exact absurd List.mem_cons_self h
  · rintro rfl
    induction n with
    | nil => exact .nil
    | cons c n ih =>
      rw [List.mem_cons,not_or] at h
      exact .same (Ne.symm h.1) (ih h.2)

omit [DecidableEq α] in
/-- A text that a pattern stands for begins as the pattern does. -/
theorem Stars.head {c : α} (hc : c ≠ star) (h : Stars star (c :: p) n) : n.head? = some c := by
  cases h with
  | same => rfl
  | any => exact absurd rfl hc

theorem Stars.length_le (h : Stars star p n) : (p.filter (· ≠ star)).length ≤ n.length := by
  induction h with
  | nil => exact Nat.le_refl 0
  | same hc _ ih =>
    rw [List.filter_cons_of_pos (by simpa using hc),List.length_cons,List.length_cons]
    exact Nat.succ_le_succ ih
  | any x _ ih =>
    rw [List.filter_cons_of_neg (by simp),List.length_append]
    exact ih.trans (Nat.le_add_left _ _)

theorem stars_self (star : α) (p : List α) : Stars star p p := by
  induction p with
  | nil => exact .nil
  | cons c p ih =>
    by_cases hc : c = star
    · rw [hc]
      exact .any [star] ih
    · exact .same hc ih

end Pieces

end StarPatterns

section Searches
variable {α : Type}

section Rfind
variable [DecidableEq α] {p s : List α}

/-- Position of the last occurrence of a pattern. -/
def rfind (p : List α) : List α → Option Nat
  | [] => if p = [] then some 0 else none
  | a :: s =>
    match rfind p s with
    | some i => some (i + 1)
    | none => if p <+: a :: s then some 0 else none

theorem find_zero : find p s = some 0 ↔ p <+: s := by
  cases s with
  | nil => simp [find]
  | cons a s =>
    rw [find]
    split
    · rename_i h
      exact iff_of_true rfl h
    · rename_i h
      refine iff_of_false ?_ h
      intro he
      obtain ⟨i,-,hi⟩ := Option.map_eq_some_iff.mp he
      exact absurd hi (Nat.succ_ne_zero i)

/-- A pattern found from behind stands at its position. -/
theorem rfind_drop {i : Nat} (h : rfind p s = some i) : p <+: s.drop i ∧ i + p.length ≤ s.length := by
  induction s generalizing i with
  | nil =>
    rw [rfind] at h
    split at h
    · rename_i hp
      cases h
      simp [hp]
    · cases h
  | cons a s ih =>
    rw [rfind] at h
    split at h
    · rename_i j hj
      cases h
      obtain ⟨hpre,hlen⟩ := ih hj
      rw [List.drop_succ_cons,List.length_cons]
      exact ⟨hpre,by omega⟩
    · split at h
      · rename_i hp
        cases h
        exact ⟨hp,by simpa using hp.length_le⟩
      · cases h

theorem rfind_of_suffix (h : p <:+ s) : rfind p s = some (s.length - p.length) := by
  induction s with
  | nil =>
    rw [List.suffix_nil.mp h]
    rfl
  | cons a s ih =>
    rw [rfind]
    rcases List.suffix_cons_iff.mp h with rfl | h
    · have hnone : rfind (a :: s) s = none := by
        rw [Option.eq_none_iff_forall_ne_some]
        intro i hi
        have := (rfind_drop hi).2
        rw [List.length_cons] at this
        omega
      rw [hnone,Nat.sub_self]
      exact if_pos (List.prefix_refl _)
    · have hle := h.length_le
      rw [ih h,List.length_cons]
      simp only [Option.some.injEq]
      omega

theorem rfind_none {c : α} (h : c ∉ s) : rfind [c] s = none := by
  rw [Option.eq_none_iff_forall_ne_some]
  intro i hi
  exact h (List.mem_of_mem_drop ((rfind_drop hi).1.subset List.mem_cons_self))

/-- An element is found from behind at its last place. -/
theorem rfind_last {c : α} {a b : List α} (h : c ∉ b) : rfind [c] (a ++ c :: b) = some a.length := by
  induction a with
  | nil =>
    rw [List.nil_append,rfind,rfind_none h]
    exact if_pos (List.cons_prefix_cons.mpr ⟨rfl,List.nil_prefix⟩)
  | cons x a ih =>
    rw [List.cons_append,rfind,ih]
    rfl

/-- The last occurrence is at the end exactly for a suffix. -/
theorem rfind_end : rfind p s = some (s.length - p.length) ↔ p <:+ s := by
  refine ⟨fun h => ?_,rfind_of_suffix⟩
  obtain ⟨hpre,hlen⟩ := rfind_drop h
  have he : p = s.drop (s.length - p.length) := by
    apply hpre.eq_of_length
    rw [List.length_drop]
    omega
  rw [he]
  exact List.drop_suffix _ _

end Rfind

section Glob
variable {star : α} {b a n : List α}

/-- A pattern whose first star stands for any text. -/
inductive Glob (star : α) : List α → List α → Prop
  | plain {p : List α} (h : star ∉ p) : Glob star p p
  | wild {b a : List α} (h : star ∉ b) (x : List α) : Glob star (b ++ star :: a) (b ++ x ++ a)

/-- A name with the two sides of a pattern, where they lie over each other. -/
def Overlap (star : α) (p n : List α) : Prop :=
  ∃ b a, p = b ++ star :: a ∧ star ∉ b ∧ b <+: n ∧ a <:+ n ∧ n.length < b.length + a.length

theorem split_unique {b' a' : List α} (hb : star ∉ b) (hb' : star ∉ b')
    (h : b ++ star :: a = b' ++ star :: a') : b = b' ∧ a = a' := by
  induction b generalizing b' with
  | nil =>
    cases b' with
    | nil => exact ⟨rfl,(List.cons.inj h).2⟩
    | cons c b' =>
      rw [(List.cons.inj h).1] at hb'
      exact absurd List.mem_cons_self hb'
  | cons c b ih =>
    cases b' with
    | nil =>
      rw [(List.cons.inj h).1] at hb
      exact absurd List.mem_cons_self hb
    | cons c' b' =>
      obtain ⟨rfl,ht⟩ := List.cons.inj h
      obtain ⟨rfl,ha⟩ := ih (fun hm => hb (List.mem_cons_of_mem _ hm))
        (fun hm => hb' (List.mem_cons_of_mem _ hm)) ht
      exact ⟨rfl,ha⟩

theorem between_iff : (∃ x, n = b ++ x ++ a) ↔ b <+: n ∧ a <:+ n ∧ b.length + a.length ≤ n.length := by
  constructor
  · rintro ⟨x,rfl⟩
    refine ⟨?_,List.suffix_append _ _,?_⟩
    · rw [List.append_assoc]
      exact List.prefix_append _ _
    · simp only [List.length_append]
      omega
  · rintro ⟨⟨u,rfl⟩,ha,hlen⟩
    rw [List.length_append] at hlen
    have hu : a <:+ u := List.suffix_of_suffix_length_le ha (List.suffix_append _ _) (by omega)
    obtain ⟨x,rfl⟩ := hu
    exact ⟨x,(List.append_assoc _ _ _).symm⟩

theorem glob_plain {p : List α} (h : star ∉ p) : Glob star p n ↔ n = p := by
  constructor
  · intro hg
    generalize hp : p = p' at hg
    cases hg with
    | plain _ => rfl
    | wild _ x =>
      rw [hp] at h
      exact absurd (by simp) h
  · rintro rfl
    exact Glob.plain h

theorem glob_wild (hb : star ∉ b) : Glob star (b ++ star :: a) n ↔
    b <+: n ∧ a <:+ n ∧ b.length + a.length ≤ n.length := by
  rw [← between_iff]
  constructor
  · intro hg
    generalize hp : b ++ star :: a = p at hg
    cases hg with
    | plain h =>
      rw [← hp] at h
      exact absurd (by simp) h
    | wild h x =>
      obtain ⟨rfl,rfl⟩ := split_unique hb h hp
      exact ⟨x,rfl⟩
  · rintro ⟨x,rfl⟩
    exact Glob.wild hb x

theorem overlap_wild (hb : star ∉ b) : Overlap star (b ++ star :: a) n ↔
    b <+: n ∧ a <:+ n ∧ n.length < b.length + a.length := by
  constructor
  · rintro ⟨b',a',hp,hb',h⟩
    obtain ⟨rfl,rfl⟩ := split_unique hb hb' hp
    exact h
  · intro h
    exact ⟨b,a,rfl,hb,h⟩

theorem overlap_plain {p : List α} (h : star ∉ p) : ¬ Overlap star p n := by
  rintro ⟨b,a,rfl,-,-⟩
  exact h (by simp)

/-- A pattern has no star, or a first one. -/
theorem star_cases [DecidableEq α] (star : α) (p : List α) :
    star ∉ p ∨ ∃ b a, p = b ++ star :: a ∧ star ∉ b := by
  by_cases h : star ∈ p
  · obtain ⟨b,a,hb,hp⟩ := List.eq_append_cons_of_mem h
    exact .inr ⟨b,a,hb,hp⟩
  · exact .inl h

instance [DecidableEq α] (star : α) (p n : List α) : Decidable (Glob star p n) :=
  match hp : p.idxOf? star with
  | none => decidable_of_iff (n = p) (glob_plain (by simpa using hp)).symm
  | some i =>
    have hi : p.take i ++ star :: p.drop (i + 1) = p ∧ star ∉ p.take i := by
      obtain ⟨hlt,hget,hno⟩ := List.findIdx?_eq_some_iff_getElem.mp hp
      refine ⟨?_,?_⟩
      · rw [← eq_of_beq hget,List.getElem_cons_drop,List.take_append_drop]
      · intro hm
        obtain ⟨j,hj,he⟩ := List.mem_take_iff_getElem.mp hm
        exact hno j (by omega) (by rw [he]; exact beq_self_eq_true _)
    decidable_of_iff (p.take i <+: n ∧ p.drop (i + 1) <:+ n ∧ (p.take i).length + (p.drop (i + 1)).length ≤ n.length)
      (by rw [← glob_wild hi.2,hi.1])

end Glob

section Filter
variable {p q : α → Bool} {l : List α}

/-- What a weaker test lets through is the same exactly when it lets nothing more through. -/
theorem filter_eq_filter_iff (h : ∀ a ∈ l, q a = true → p a = true) :
    l.filter p = l.filter q ↔ ∀ a ∈ l, p a = true → q a = true := by
  constructor
  · intro he a ha hp
    have hm : a ∈ l.filter p := List.mem_filter.mpr ⟨ha,hp⟩
    rw [he] at hm
    exact (List.mem_filter.mp hm).2
  · intro hq
    apply List.filter_congr
    intro a ha
    rw [Bool.eq_iff_iff]
    exact ⟨hq a ha,h a ha⟩

end Filter

end Searches

end CppTango.Lib
