import Mathlib.Data.Finset.Card
import Mathlib.Data.List.Basic
import Mathlib.Logic.Function.Basic
import Mathlib.Logic.Relation

namespace CppTango.Lib

/-- A list of which each element is a leaf or a list of the same kind. -/
inductive Nested (α γ : Type) where
  | nil
  | leaf (a : α) (rest : Nested α γ)
  | node (g : γ) (sub rest : Nested α γ)
deriving DecidableEq, Repr

namespace Nested
variable {α β γ δ : Type}

def map (f : α → β) (g : γ → δ) : Nested α γ → Nested β δ
  | nil => nil
  | leaf a rest => leaf (f a) (map f g rest)
  | node c sub rest => node (g c) (map f g sub) (map f g rest)

/-- The leaves from left to right, those of the inner lists only if they are asked for. -/
@[grind =] def leaves (inner : Bool) : Nested α γ → List α
  | nil => []
  | leaf a rest => a :: leaves inner rest
  | node _ sub rest => (if inner then leaves inner sub else []) ++ leaves inner rest

/-- The inner lists. -/
@[grind =] def nodes : Nested α γ → List γ
  | nil => []
  | leaf _ rest => nodes rest
  | node g sub rest => g :: (nodes sub ++ nodes rest)

/-- The elements of one of the inner lists. -/
def inside [DecidableEq γ] (g : γ) : Nested α γ → Option (Nested α γ)
  | nil => none
  | leaf _ rest => inside g rest
  | node g' sub rest => if g' = g then some sub else (inside g sub).or (inside g rest)

/-- An inner list has its leaves and lists from the whole one. -/
theorem inside_sublist [DecidableEq γ] {t sub : Nested α γ} {g : γ} (h : t.inside g = some sub) :
    (sub.leaves true).Sublist (t.leaves true) ∧ (g :: sub.nodes).Sublist t.nodes := by
  induction t with
  | nil => cases h
  | leaf a rest ih =>
    obtain ⟨hl,hn⟩ := ih h
    exact ⟨hl.cons a,hn⟩
  | node g' sub' rest ihs ihr =>
    rw [inside] at h
    rw [leaves,if_pos rfl,nodes]
    split at h
    next he =>
      cases h
      rw [he]
      exact ⟨List.sublist_append_left _ _,(List.sublist_append_left _ _).cons_cons g⟩
    next =>
      rcases Option.or_eq_some_iff.mp h with h | ⟨-,h⟩
      · obtain ⟨hl,hn⟩ := ihs h
        exact ⟨hl.trans (List.sublist_append_left _ _),(hn.trans (List.sublist_append_left _ _)).cons g'⟩
      · obtain ⟨hl,hn⟩ := ihr h
        exact ⟨hl.trans (List.sublist_append_right _ _),(hn.trans (List.sublist_append_right _ _)).cons g'⟩

/-- Each leaf with the number of elements that stand before it or before a list that it is in. -/
@[grind =] def places (before : Nat) : Nested α γ → List (α × Nat)
  | nil => []
  | leaf a rest => (a,before) :: places (before + 1) rest
  | node _ sub rest => places before sub ++ places (before + 1) rest

theorem map_fst_places (t : Nested α γ) (before : Nat) : (t.places before).map Prod.fst = t.leaves true := by
  induction t generalizing before with
  | nil => rfl
  | leaf a rest ih => rw [places,List.map_cons,ih,leaves]
  | node g sub rest ihs ihr => rw [places,List.map_append,ihs,ihr,leaves,if_pos rfl]

/-- A search that goes down one for each element it passes, a leaf or a list. -/
@[grind =] def countDown (idx : Int) : Nested α γ → Option α
  | nil => none
  | leaf a rest => if idx - 1 = 0 then some a else countDown (idx - 1) rest
  | node _ sub rest => (countDown idx sub).or (countDown (idx - 1) rest)

/-- It finds the first leaf whose place is the one before the index. -/
theorem countDown_eq (t : Nested α γ) (before : Nat) (idx : Int) :
    t.countDown (idx - before) = ((t.places before).find? (fun p => (p.2 : Int) + 1 = idx)).map Prod.fst := by
  induction t generalizing before with
  | nil => rfl
  | leaf a rest ih =>
    have hnext : idx - before - 1 = idx - ((before + 1 : Nat) : Int) := by omega
    rw [countDown,places,List.find?_cons]
    by_cases h : (before : Int) + 1 = idx
    · have hzero : idx - before - 1 = 0 := by omega
      simp [hzero,h]
    · have hzero : ¬idx - before - 1 = 0 := by omega
      rw [if_neg hzero,hnext,ih]
      simp [h]
  | node g sub rest ihs ihr =>
    have hnext : idx - before - 1 = idx - ((before + 1 : Nat) : Int) := by omega
    rw [countDown,places,List.find?_append,ihs,hnext,ihr]
    cases (sub.places before).find? (fun p : α × Nat => (p.2 : Int) + 1 = idx) <;> rfl

theorem countDown_some {t : Nested α γ} {idx : Int} {a : α} (h : t.countDown idx = some a) :
    ∃ n p : Nat, (t.places 0)[n]? = some (a,p) ∧ (p : Int) + 1 = idx := by
  have heq := countDown_eq t 0 idx
  rw [Int.natCast_zero,Int.sub_zero,h] at heq
  obtain ⟨p,hp,rfl⟩ := Option.map_eq_some_iff.mp heq.symm
  obtain ⟨n,hn⟩ := List.mem_iff_getElem?.mp (List.mem_of_find?_eq_some hp)
  have hidx := List.find?_some hp
  exact ⟨n,p.2,hn,by simpa using hidx⟩

theorem countDown_isSome {t : Nested α γ} {n p : Nat} {a : α} (h : (t.places 0)[n]? = some (a,p)) :
    (t.countDown (p + 1)).isSome = true := by
  have heq := countDown_eq t 0 (p + 1)
  rw [Int.natCast_zero,Int.sub_zero] at heq
  rw [heq,Option.isSome_map,List.find?_isSome]
  exact ⟨(a,p),List.mem_of_getElem? h,by simp⟩

/-- Before each leaf stand as many elements as leaves. -/
def InPlace (t : Nested α γ) : Prop := ∀ (n : Nat) (a : α) (p : Nat), (t.places 0)[n]? = some (a,p) → p = n

theorem leaves_getElem? (t : Nested α γ) (n : Nat) :
    (t.leaves true)[n]? = ((t.places 0)[n]?).map Prod.fst := by
  rw [← map_fst_places t 0,List.getElem?_map]

/-- Counting down finds the leaf of each number just where every leaf is in its place. -/
theorem countDown_iff {t : Nested α γ} (hn : (t.leaves true).Nodup) :
    (∀ idx : Int, t.countDown idx = if 1 ≤ idx then (t.leaves true)[(idx - 1).toNat]? else none) ↔ t.InPlace := by
  constructor
  · intro h n a p hp
    have hleaf : (t.leaves true)[n]? = some a := by
      rw [leaves_getElem?,hp]
      rfl
    have hget := h (n + 1)
    rw [if_pos (by omega),Int.add_sub_cancel,Int.toNat_natCast,hleaf] at hget
    obtain ⟨m,q,hm,hq⟩ := countDown_some hget
    have hleaf' : (t.leaves true)[m]? = some a := by
      rw [leaves_getElem?,hm]
      rfl
    have hlt := (List.getElem?_eq_some_iff.mp hleaf').1
    obtain rfl : m = n := (List.getElem?_inj hlt hn).mp (hleaf'.trans hleaf.symm)
    cases hm.symm.trans hp
    omega
  · intro h idx
    split
    · rename_i hidx
      rw [leaves_getElem?]
      cases hp : (t.places 0)[(idx - 1).toNat]? with
      | none =>
        refine Option.eq_none_iff_forall_not_mem.mpr (fun a ha => ?_)
        obtain ⟨m,q,hm,hq⟩ := countDown_some ha
        have hmq := h m a q hm
        have hm' : m = (idx - 1).toNat := by omega
        rw [hm',hp] at hm
        cases hm
      | some x =>
        obtain ⟨a,p⟩ := x
        have hpl := h _ a p hp
        have hsome := countDown_isSome hp
        have hback : (p : Int) + 1 = idx := by omega
        rw [hback] at hsome
        obtain ⟨b,hb⟩ := Option.isSome_iff_exists.mp hsome
        obtain ⟨m,q,hm,hq⟩ := countDown_some hb
        have hmq := h m b q hm
        have hm' : m = (idx - 1).toNat := by omega
        rw [hm',hp] at hm
        cases hm
        exact hb
    · rename_i hidx
      refine Option.eq_none_iff_forall_not_mem.mpr (fun a ha => ?_)
      obtain ⟨m,q,hm,hq⟩ := countDown_some ha
      omega

end Nested

section Acyclic
variable {α : Type} {up up' : α → Option α}

def Up (up : α → Option α) (a b : α) : Prop := up a = some b

/-- No node is above itself. -/
def Acyclic (up : α → Option α) : Prop := ∀ a, ¬ Relation.TransGen (Up up) a a

theorem acyclic_mono (h : Acyclic up) (hu : ∀ a b, up' a = some b → up a = some b) : Acyclic up' :=
  fun a hc => h a (Relation.TransGen.mono hu a a hc)

/-- A path behind a new edge is an old one, or one through the edge. -/
theorem path_attach [DecidableEq α] {g t a b : α}
    (h : Relation.TransGen (Up (Function.update up g (some t))) a b) :
    Relation.TransGen (Up up) a b ∨
      Relation.ReflTransGen (Up up) a g ∧ Relation.ReflTransGen (Up up) t b := by
  induction h with
  | single hab =>
    unfold Up at hab
    by_cases ha : a = g
    · rw [ha,Function.update_self,Option.some.injEq] at hab
      rw [ha,hab]
      exact .inr ⟨.refl,.refl⟩
    · rw [Function.update_of_ne ha] at hab
      exact .inl (.single hab)
  | tail hab hbc ih =>
    rename_i b c
    unfold Up at hbc
    by_cases hb : b = g
    · rw [hb,Function.update_self,Option.some.injEq] at hbc
      rw [hb] at ih
      rw [← hbc]
      refine .inr ⟨?_,.refl⟩
      rcases ih with ih | ⟨ih,-⟩
      · exact ih.to_reflTransGen
      · exact ih
    · rw [Function.update_of_ne hb] at hbc
      rcases ih with ih | ⟨hag,htb⟩
      · exact .inl (ih.tail hbc)
      · exact .inr ⟨hag,htb.tail hbc⟩

/-- A root may be put under a node that it is not above. -/
theorem acyclic_attach [DecidableEq α] {g t : α} (h : Acyclic up)
    (hn : ¬ Relation.ReflTransGen (Up up) t g) : Acyclic (Function.update up g (some t)) := by
  intro a hc
  rcases path_attach hc with hc | ⟨hag,hta⟩
  · exact h a hc
  · exact hn (hta.trans hag)

/-- The number of nodes above a node falls on the way up. -/
theorem exists_rank {nodes : Finset α} (h : Acyclic up)
    (hn : ∀ a b, up a = some b → b ∈ nodes) :
    ∃ rank : α → Nat, (∀ a b, up a = some b → rank b < rank a) ∧ ∀ a, rank a ≤ nodes.card := by
  classical
  refine ⟨fun a => (nodes.filter (Relation.TransGen (Up up) a)).card,?_,?_⟩
  · intro a b hab
    apply Finset.card_lt_card
    refine Finset.ssubset_iff_subset_ne.mpr ⟨?_,?_⟩
    · intro c hc
      obtain ⟨hc,hbc⟩ := Finset.mem_filter.mp hc
      exact Finset.mem_filter.mpr ⟨hc,.head hab hbc⟩
    · intro he
      have hb : b ∈ nodes.filter (Relation.TransGen (Up up) a) :=
        Finset.mem_filter.mpr ⟨hn a b hab,.single hab⟩
      rw [← he] at hb
      exact h b (Finset.mem_filter.mp hb).2
  · intro a
    exact Finset.card_filter_le _ _

end Acyclic

section Walks
variable {α β : Type}

/-- What is found at each element, one behind the other; `none` when a search does not end. -/
@[grind =] def gather (f : α → Option (List β)) : List α → Option (List β)
  | [] => some []
  | a :: l => (f a).bind (fun xs => (gather f l).map (xs ++ ·))

theorem gather_cons {f : α → Option (List β)} {a : α} {l : List α} {ys : List β} :
    gather f (a :: l) = some ys ↔ ∃ xs zs, f a = some xs ∧ gather f l = some zs ∧ ys = xs ++ zs := by
  rw [gather]
  constructor
  · intro h
    obtain ⟨xs,hxs,h⟩ := Option.bind_eq_some_iff.mp h
    obtain ⟨zs,hzs,rfl⟩ := Option.map_eq_some_iff.mp h
    exact ⟨xs,zs,hxs,hzs,rfl⟩
  · rintro ⟨xs,zs,hxs,hzs,rfl⟩
    rw [hxs,hzs]
    rfl

theorem gather_ends {f : α → Option (List β)} {l : List α} (h : ∀ a ∈ l, ∃ xs, f a = some xs) :
    ∃ ys, gather f l = some ys := by
  induction l with
  | nil => exact ⟨[],rfl⟩
  | cons a l ih =>
    obtain ⟨xs,hxs⟩ := h a List.mem_cons_self
    obtain ⟨zs,hzs⟩ := ih (fun b hb => h b (List.mem_cons_of_mem a hb))
    exact ⟨xs ++ zs,gather_cons.mpr ⟨xs,zs,hxs,hzs,rfl⟩⟩

theorem mem_gather {f : α → Option (List β)} {l : List α} {ys : List β} (h : gather f l = some ys)
    {b : β} : b ∈ ys ↔ ∃ a ∈ l, ∃ xs, f a = some xs ∧ b ∈ xs := by
  induction l generalizing ys with
  | nil =>
    cases h
    simp
  | cons a l ih =>
    obtain ⟨xs,zs,hxs,hzs,rfl⟩ := gather_cons.mp h
    rw [List.mem_append,ih hzs]
    simp only [List.exists_mem_cons_iff,hxs,Option.some.injEq,exists_eq_left']

theorem gather_snoc {f : α → Option (List β)} {l : List α} {ys xs : List β} {a : α}
    (h : gather f l = some ys) (ha : f a = some xs) : gather f (l ++ [a]) = some (ys ++ xs) := by
  induction l generalizing ys with
  | nil =>
    cases h
    exact gather_cons.mpr ⟨xs,[],ha,rfl,by simp⟩
  | cons b l ih =>
    obtain ⟨us,vs,hus,hvs,rfl⟩ := gather_cons.mp h
    exact gather_cons.mpr ⟨us,vs ++ xs,hus,ih hvs,by simp⟩

theorem gather_mono {f g : α → Option (List β)} {l : List α} {ys : List β}
    (h : ∀ a ∈ l, ∀ xs, f a = some xs → g a = some xs) (hf : gather f l = some ys) :
    gather g l = some ys := by
  induction l generalizing ys with
  | nil => exact hf
  | cons a l ih =>
    obtain ⟨xs,zs,hxs,hzs,rfl⟩ := gather_cons.mp hf
    refine gather_cons.mpr ⟨xs,zs,h a List.mem_cons_self xs hxs,?_,rfl⟩
    exact ih (fun b hb => h b (List.mem_cons_of_mem a hb)) hzs

theorem gather_congr {f g : α → Option (List β)} {l : List α} (h : ∀ a ∈ l, f a = g a) :
    gather f l = gather g l := by
  induction l with
  | nil => rfl
  | cons a l ih =>
    rw [gather,gather,h a List.mem_cons_self,ih (fun b hb => h b (List.mem_cons_of_mem a hb))]

/-- The first element that is wanted. -/
@[grind =] def firstThat (p : α → Option Bool) : List α → Option (Option α)
  | [] => some none
  | a :: l => (p a).bind (fun b => if b then some (some a) else firstThat p l)

/-- The first answer of a search at each element. -/
def firstAnswer (f : α → Option (Option β)) : List α → Option (Option β)
  | [] => some none
  | a :: l =>
    (f a).bind (fun r => match r with
      | some b => some (some b)
      | none => firstAnswer f l)

theorem firstThat_congr {p q : α → Option Bool} {l : List α} (h : ∀ a ∈ l, p a = q a) :
    firstThat p l = firstThat q l := by
  induction l with
  | nil => rfl
  | cons a l ih =>
    rw [firstThat,firstThat,h a List.mem_cons_self,ih (fun b hb => h b (List.mem_cons_of_mem a hb))]

theorem firstThat_ends {p : α → Option Bool} {l : List α} (h : ∀ a ∈ l, ∃ b, p a = some b) :
    ∃ r, firstThat p l = some r ∧ (∀ a ∈ r, a ∈ l ∧ p a = some true) ∧
      (r = none → ∀ a ∈ l, p a = some false) := by
  induction l with
  | nil => exact ⟨none,rfl,by simp,by simp⟩
  | cons a l ih =>
    obtain ⟨b,hb⟩ := h a List.mem_cons_self
    rw [firstThat,hb]
    cases b with
    | true =>
      refine ⟨some a,rfl,?_,fun hn => by cases hn⟩
      intro x hx
      cases Option.mem_some_iff.mp hx
      exact ⟨List.mem_cons_self,hb⟩
    | false =>
      obtain ⟨r,hr,hin,hnone⟩ := ih (fun b hb => h b (List.mem_cons_of_mem a hb))
      refine ⟨r,hr,?_,?_⟩
      · intro x hx
        exact ⟨List.mem_cons_of_mem a (hin x hx).1,(hin x hx).2⟩
      · intro hn x hx
        rcases List.mem_cons.mp hx with rfl | hx
        · exact hb
        · exact hnone hn x hx

theorem firstAnswer_ends {f : α → Option (Option β)} {l : List α}
    (h : ∀ a ∈ l, ∃ r, f a = some r) :
    ∃ r, firstAnswer f l = some r ∧ (∀ b ∈ r, ∃ a ∈ l, f a = some (some b)) ∧
      (r = none → ∀ a ∈ l, f a = some none) := by
  induction l with
  | nil => exact ⟨none,rfl,by simp,by simp⟩
  | cons a l ih =>
    obtain ⟨s,hs⟩ := h a List.mem_cons_self
    rw [firstAnswer,hs]
    cases s with
    | some b =>
      refine ⟨some b,rfl,?_,fun hn => by cases hn⟩
      intro x hx
      cases Option.mem_some_iff.mp hx
      exact ⟨a,List.mem_cons_self,hs⟩
    | none =>
      obtain ⟨r,hr,hin,hnone⟩ := ih (fun b hb => h b (List.mem_cons_of_mem a hb))
      refine ⟨r,hr,?_,?_⟩
      · intro b hb
        obtain ⟨x,hx,hfx⟩ := hin b hb
        exact ⟨x,List.mem_cons_of_mem a hx,hfx⟩
      · intro hn x hx
        rcases List.mem_cons.mp hx with rfl | hx
        · exact hs
        · exact hnone hn x hx

end Walks

end CppTango.Lib
