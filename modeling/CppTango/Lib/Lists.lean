import Mathlib.Data.List.Basic
import Mathlib.Data.List.Forall2
import Mathlib.Data.List.Nodup
import Mathlib.Data.List.Sort
import Mathlib.Data.List.TakeWhile

namespace CppTango.Lib

section Sorting
variable {α β κ : Type} [LinearOrder κ] {key : α → κ} {l m : List α}

/-- In the order of a key. -/
def sortBy (key : α → κ) (l : List α) : List α := l.insertionSort (fun a b => key a ≤ key b)

theorem sortBy_perm (key : α → κ) (l : List α) : (sortBy key l).Perm l := List.perm_insertionSort _ l

theorem sortBy_le (key : α → κ) (l : List α) : (sortBy key l).Pairwise (fun a b => key a ≤ key b) := by
  have ht : IsTrans α (fun a b => key a ≤ key b) := ⟨fun _ _ _ => le_trans⟩
  have hs : Std.Total (fun a b : α => key a ≤ key b) := ⟨fun a b => le_total (key a) (key b)⟩
  exact List.pairwise_insertionSort _ l

/-- Different keys stand in strict order. -/
theorem sortBy_lt (h : (l.map key).Nodup) : (sortBy key l).Pairwise (fun a b => key a < key b) := by
  have hn : ((sortBy key l).map key).Nodup := ((sortBy_perm key l).map key).nodup_iff.mpr h
  exact ((sortBy_le key l).and (List.pairwise_map.mp hn)).imp fun h => lt_of_le_of_ne h.1 h.2

/-- Sorted lists with different keys are the same, seen through a view that keeps the key, when they have the same
elements. -/
theorem map_sortBy_eq_iff (view : α → β) (viewKey : β → κ) (hk : ∀ a, viewKey (view a) = key a)
    (hl : (l.map key).Nodup) (hm : (m.map key).Nodup) :
    (sortBy key l).map view = (sortBy key m).map view ↔ ∀ x, x ∈ l.map view ↔ x ∈ m.map view := by
  have hmem : ∀ (n : List α) (x : β), x ∈ (sortBy key n).map view ↔ x ∈ n.map view := fun n x =>
    ((sortBy_perm key n).map view).mem_iff
  have hlt : ∀ {n : List α}, (n.map key).Nodup →
      ((sortBy key n).map view).Pairwise (fun a b => viewKey a < viewKey b) := by
    intro n hn
    rw [List.pairwise_map]
    simpa only [hk] using sortBy_lt hn
  constructor
  · intro h x
    rw [← hmem l,← hmem m,h]
  · intro h
    have hi : Std.Irrefl (fun a b : β => viewKey a < viewKey b) := ⟨fun _ => lt_irrefl _⟩
    have ha : Std.Antisymm (fun a b : β => viewKey a < viewKey b) := ⟨fun _ _ hab hba => (lt_asymm hab hba).elim⟩
    refine List.Pairwise.eq_of_mem_iff (hlt hl) (hlt hm) fun x => ?_
    rw [hmem,hmem]
    exact h x

/-- A comparison that looks through a view compares what is seen. -/
theorem isEqv_iff {eq : α → α → Bool} (view : α → β) (he : ∀ a b, eq a b = true ↔ view a = view b) :
    l.isEqv m eq = true ↔ l.map view = m.map view := by
  induction l generalizing m with
  | nil => cases m <;> simp [List.isEqv]
  | cons a l ih =>
    cases m with
    | nil => simp [List.isEqv]
    | cons b m => simp [List.isEqv,he,ih]

end Sorting

section Placed
variable {α : Type} {list xs ys : List α} {i : Nat}

/-- A piece of a list that starts at a position. -/
def Placed (list : List α) (i : Nat) (xs : List α) : Prop := xs <+: list.drop i

theorem placed_append (pre xs : List α) : Placed (pre ++ xs) pre.length xs := by
  refine ⟨[],?_⟩
  rw [List.append_nil,List.drop_left]

theorem Placed.get (h : Placed list i xs) {k : Nat} {x : α} (hk : xs[k]? = some x) :
    list[i + k]? = some x := by
  obtain ⟨rest,hr⟩ := h
  rw [← List.getElem?_drop,← hr]
  obtain ⟨hlt,-⟩ := List.getElem?_eq_some_iff.mp hk
  rw [List.getElem?_append_left hlt,hk]

theorem Placed.head {x : α} (h : Placed list i (x :: xs)) : list[i]? = some x := by
  have := h.get (k := 0) rfl
  rwa [Nat.add_zero] at this

theorem Placed.left (h : Placed list i (xs ++ ys)) : Placed list i xs :=
  (List.prefix_append xs ys).trans h

theorem Placed.right (h : Placed list i (xs ++ ys)) : Placed list (i + xs.length) ys := by
  obtain ⟨rest,hr⟩ := h
  refine ⟨rest,?_⟩
  rw [← List.drop_drop,← hr,List.append_assoc,List.drop_left]

theorem Placed.tail {x : α} (h : Placed list i (x :: xs)) : Placed list (i + 1) xs := by
  have h' : Placed list i ([x] ++ xs) := h
  exact h'.right

theorem Placed.take (h : Placed list i xs) : (list.drop i).take xs.length = xs := by
  obtain ⟨rest,hr⟩ := h
  rw [← hr,List.take_left]

theorem Placed.room (h : Placed list i xs) : xs.length ≤ list.length := by
  have := List.IsPrefix.length_le h
  rw [List.length_drop] at this
  omega

end Placed

section Related
variable {α β γ : Type} {r : α → β → Prop}

/-- A search in related lists finds related elements. -/
theorem find_related {p : α → Bool} {q : β → Bool} {l : List α} {m : List β}
    (h : List.Forall₂ r l m) (hpq : ∀ a b, r a b → p a = q b) :
    (l.find? p = none ∧ m.find? q = none) ∨
      ∃ a b, l.find? p = some a ∧ m.find? q = some b ∧ r a b := by
  induction h with
  | nil => exact Or.inl ⟨rfl,rfl⟩
  | @cons a b l m hab _ ih =>
    rw [List.find?_cons,List.find?_cons,hpq a b hab]
    cases q b with
    | true => exact Or.inr ⟨a,b,rfl,rfl,hab⟩
    | false => exact ih

theorem zip_related {f : β → γ} {l : List α} {m : List β} (h : List.Forall₂ r l m) :
    List.Forall₂ (fun x b => x.1 = f b ∧ r x.2 b) ((m.map f).zip l) m := by
  induction h with
  | nil => exact List.Forall₂.nil
  | cons hab _ ih => exact List.Forall₂.cons ⟨rfl,hab⟩ ih

end Related

section Prefixes
variable {α : Type} {p q : α → Bool} {l : List α}

/-- In the first part of a list, where a kind of elements belongs, those of the kind are just the first one of
the list. -/
theorem filter_takeWhile (hpq : ∀ x ∈ l, q x = true → p x = true) :
    (l.takeWhile p).filter q = (l.find? q).toList ↔
      ((l.takeWhile p).filter q).length ≤ 1 ∧ ((∃ x ∈ l, q x = true) → ∃ x ∈ l.takeWhile p, q x = true) := by
  induction l with
  | nil => simp
  | cons a l ih =>
    have ih := ih (fun x hx => hpq x (List.mem_cons_of_mem a hx))
    cases hp : p a with
    | false =>
      have hq : q a = false := Bool.eq_false_iff.mpr (fun hq =>
        Bool.noConfusion (hp.symm.trans (hpq a List.mem_cons_self hq)))
      rw [List.takeWhile_cons_of_neg (by simp [hp]),List.find?_cons_of_neg (by simp [hq])]
      cases hf : l.find? q with
      | none =>
        have hnone := List.find?_eq_none.mp hf
        simp only [List.filter_nil,Option.toList_none,List.length_nil,Nat.zero_le,List.not_mem_nil,true_and,true_iff]
        rintro ⟨x,hx,hqx⟩
        rcases List.mem_cons.mp hx with rfl | hx
        · exact Bool.noConfusion (hq.symm.trans hqx)
        · exact absurd hqx (hnone x hx)
      | some x =>
        refine iff_of_false (by simp) (fun h => ?_)
        obtain ⟨y,hy,-⟩ := h.2 ⟨x,List.mem_cons_of_mem a (List.mem_of_find?_eq_some hf),List.find?_some hf⟩
        cases hy
    | true =>
      rw [List.takeWhile_cons_of_pos hp]
      cases hq : q a with
      | false =>
        rw [List.filter_cons_of_neg (by simp [hq]),List.find?_cons_of_neg (by simp [hq]),ih]
        simp [hq]
      | true =>
        rw [List.filter_cons_of_pos hq,List.find?_cons_of_pos hq]
        simp only [Option.toList_some,List.cons.injEq,true_and,List.length_cons]
        constructor
        · intro hnil
          rw [hnil]
          exact ⟨Nat.le_refl _,fun _ => ⟨a,List.mem_cons_self,hq⟩⟩
        · rintro ⟨hlen,-⟩
          exact List.eq_nil_of_length_eq_zero (by omega)

theorem map_filter_takeWhile {β : Type} (f : α → β) (hpq : ∀ x ∈ l, q x = true → p x = true) :
    ((l.takeWhile p).filter q).map f = ((l.find? q).map f).toList ↔
      ((l.takeWhile p).filter q).length ≤ 1 ∧ ((∃ x ∈ l, q x = true) → ∃ x ∈ l.takeWhile p, q x = true) := by
  rw [← filter_takeWhile hpq,Option.toList_map]
  refine ⟨fun h => ?_,congrArg (List.map f)⟩
  have hlen := congrArg List.length h
  rw [List.length_map,List.length_map] at hlen
  have hpre := ((List.takeWhile_prefix p).filter q : (l.takeWhile p).filter q <+: l.filter q)
  rw [← List.head?_filter] at hlen ⊢
  obtain ⟨rest,hrest⟩ := hpre
  rw [← hrest] at hlen ⊢
  cases hL : (l.takeWhile p).filter q with
  | nil =>
    rw [hL] at hlen
    cases rest with
    | nil => rfl
    | cons => simp at hlen
  | cons a L =>
    rw [hL] at hlen
    have : L = [] := List.eq_nil_of_length_eq_zero (by simpa using hlen)
    simp [this]

end Prefixes

section Firsts
variable {α : Type} [DecidableEq α] (good : α → Bool)

/-- The good elements of a list that were not seen before, each at its first place. -/
def firstsIn (seen : List α) : List α → List α
  | [] => []
  | e::es => if good e = true ∧ e ∉ seen then e :: firstsIn (e :: seen) es else firstsIn seen es

/-- The same for a list of lists, each seeing what the lists before it kept. -/
def firsts (seen : List α) : List (List α) → List (List α)
  | [] => []
  | es::rest => firstsIn good seen es :: firsts (firstsIn good seen es ++ seen) rest

variable {good}

theorem mem_firstsIn {seen es : List α} {x : α} :
    x ∈ firstsIn good seen es ↔ x ∈ es ∧ good x = true ∧ x ∉ seen := by
  induction es generalizing seen with
  | nil => simp [firstsIn]
  | cons e es ih =>
    rw [firstsIn]
    split
    · rename_i h
      rw [List.mem_cons,ih,List.mem_cons,List.mem_cons]
      by_cases hx : x = e
      · subst hx
        simp [h]
      · simp [hx]
    · rename_i h
      rw [ih,List.mem_cons]
      constructor
      · rintro ⟨hm,hg⟩
        exact ⟨Or.inr hm,hg⟩
      · rintro ⟨rfl | hm,hg⟩
        · exact absurd hg h
        · exact ⟨hm,hg⟩

theorem nodup_firstsIn (seen es : List α) : (firstsIn good seen es).Nodup := by
  induction es generalizing seen with
  | nil => exact List.nodup_nil
  | cons e es ih =>
    rw [firstsIn]
    split
    · refine List.nodup_cons.mpr ⟨?_,ih _⟩
      rw [mem_firstsIn]
      simp
    · exact ih seen

theorem length_firsts (seen : List α) (es : List (List α)) :
    (firsts good seen es).length = es.length := by
  induction es generalizing seen with
  | nil => rfl
  | cons e es ih => rw [firsts,List.length_cons,List.length_cons,ih]

theorem mem_firsts {seen : List α} {ess : List (List α)} {x : α} :
    x ∈ (firsts good seen ess).flatten ↔ x ∈ ess.flatten ∧ good x = true ∧ x ∉ seen := by
  induction ess generalizing seen with
  | nil => simp [firsts]
  | cons es rest ih =>
    rw [firsts,List.flatten_cons,List.mem_append,ih,List.flatten_cons,List.mem_append,mem_firstsIn,
      List.mem_append]
    tauto

theorem nodup_firsts (seen : List α) (ess : List (List α)) :
    (firsts good seen ess).flatten.Nodup := by
  induction ess generalizing seen with
  | nil => exact List.nodup_nil
  | cons es rest ih =>
    rw [firsts,List.flatten_cons,List.nodup_append]
    refine ⟨nodup_firstsIn _ _,ih _,fun a ha b hb hab => ?_⟩
    rw [mem_firsts] at hb
    exact hb.2.2 (hab ▸ List.mem_append_left _ ha)

end Firsts

end CppTango.Lib
