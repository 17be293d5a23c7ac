import Mathlib.Algebra.Ring.Nat
import Mathlib.Data.List.Perm.Basic
import Mathlib.Data.List.Sort
import Mathlib.Logic.Function.Iterate

namespace CppTango.Lib

variable {α : Type} (date : α → Int)

section Order

/-- Entries stand in the order of their dates. -/
def InOrder (l : List α) : Prop := l.Pairwise (fun a b => date a ≤ date b)

/-- A new entry stands before the first one that is not earlier. -/
def enter (a : α) (l : List α) : List α := l.orderedInsert (fun x y => date x ≤ date y) a

instance dateTotal : Std.Total (fun x y : α => date x ≤ date y) := ⟨fun x y => Int.le_total (date x) (date y)⟩

instance dateTrans : IsTrans α (fun x y => date x ≤ date y) := ⟨fun _ _ _ => Int.le_trans⟩

variable {date} {l l' : List α} {a b : α}

theorem inOrder_iff : InOrder date l ↔ (l.map date).Pairwise (· ≤ ·) := List.pairwise_map.symm

/-- Only the dates count. -/
theorem InOrder.congr (h : InOrder date l) (hd : l'.map date = l.map date) : InOrder date l' := by
  rw [inOrder_iff,hd]
  exact inOrder_iff.mp h

theorem InOrder.dates_sublist (h : InOrder date l) (hd : (l'.map date).Sublist (l.map date)) :
    InOrder date l' :=
  inOrder_iff.mpr (List.Pairwise.sublist hd (inOrder_iff.mp h))

theorem InOrder.sublist (h : InOrder date l) (hs : l'.Sublist l) : InOrder date l' := List.Pairwise.sublist hs h

theorem InOrder.tail (h : InOrder date (a :: l)) : InOrder date l := (List.pairwise_cons.mp h).2

theorem InOrder.head_le (h : InOrder date (a :: l)) (hb : b ∈ a :: l) : date a ≤ date b := by
  rcases List.mem_cons.mp hb with rfl | hb
  · exact Int.le_refl _
  · exact (List.pairwise_cons.mp h).1 b hb

theorem inOrder_cons_cons : InOrder date (a :: b :: l) ↔ date a ≤ date b ∧ InOrder date (b :: l) := by
  constructor
  · exact fun h => ⟨h.head_le (List.mem_cons_of_mem _ List.mem_cons_self),h.tail⟩
  · rintro ⟨hab,h⟩
    exact List.pairwise_cons.mpr ⟨fun c hc => Int.le_trans hab (h.head_le hc),h⟩

theorem InOrder.enter (h : InOrder date l) (a : α) : InOrder date (enter date a l) :=
  List.Pairwise.orderedInsert a l h

theorem mem_enter : b ∈ enter date a l ↔ b = a ∨ b ∈ l := List.mem_orderedInsert _

theorem perm_enter (a : α) (l : List α) : (enter date a l).Perm (a :: l) := List.perm_orderedInsert _ a l

/-- An entry later than the head goes behind it. -/
theorem enter_later (h : date b < date a) : enter date a (b :: l) = b :: enter date a l :=
  List.orderedInsert_of_not_le _ l (Int.not_le.mpr h)

end Order

section Postpone
variable (next : α → α) (bound : Int)

/-- Entries before the bound are moved on one by one, the first one first. -/
@[grind =] def postpone : Nat → List α → List α
  | 0,l => l
  | _+1,[] => []
  | n+1,a :: l => if date a < bound then postpone n (enter date (next a) l) else a :: l

/-- How far the entries are before the bound, all together. -/
def behind (l : List α) : Nat := (l.map (fun a => (bound - date a).toNat)).sum

/-- `b` is `a` moved on, from dates before the bound only. -/
def Moved (a b : α) : Prop := ∃ k, b = next^[k] a ∧ ∀ i < k, date (next^[i] a) < bound

variable {date next bound} {P : α → Prop} {l : List α} {a b : α} {n : Nat}

theorem Moved.refl (a : α) : Moved date next bound a a := ⟨0,rfl,fun _ h => absurd h (Nat.not_lt_zero _)⟩

theorem Moved.step (ha : date a < bound) (h : Moved date next bound (next a) b) :
    Moved date next bound a b := by
  obtain ⟨k,hb,hk⟩ := h
  refine ⟨k + 1,by rw [Function.iterate_succ_apply,hb],fun i hi => ?_⟩
  cases i with
  | zero => exact ha
  | succ i =>
    rw [Function.iterate_succ_apply]
    exact hk i (Nat.lt_of_succ_lt_succ hi)

variable (hP : ∀ a, P a → P (next a) ∧ date a < date (next a))
include hP

theorem iterate_kept (ha : P a) (k : Nat) : P (next^[k] a) := by
  induction k with
  | zero => exact ha
  | succ k ih =>
    rw [Function.iterate_succ_apply']
    exact (hP _ ih).1

theorem date_iterate_lt (ha : P a) {i k : Nat} (h : i < k) : date (next^[i] a) < date (next^[k] a) := by
  induction k with
  | zero => exact absurd h (Nat.not_lt_zero _)
  | succ k ih =>
    have hstep := (hP _ (iterate_kept hP ha k)).2
    rw [Function.iterate_succ_apply']
    rcases Nat.lt_succ_iff_lt_or_eq.mp h with hi | rfl
    · exact Int.lt_trans (ih hi) hstep
    · exact hstep

theorem kept_entered (h : ∀ b ∈ a :: l, P b) :
    ∀ b ∈ enter date (next a) l, P b := by
  intro b hb
  rcases mem_enter.mp hb with rfl | hb
  · exact (hP a (h a List.mem_cons_self)).1
  · exact h b (List.mem_cons_of_mem _ hb)

theorem postpone_inOrder (n : Nat) (ho : InOrder date l) (hl : ∀ a ∈ l, P a) :
    InOrder date (postpone date next bound n l) ∧ ∀ a ∈ postpone date next bound n l, P a := by
  induction n generalizing l with
  | zero => exact ⟨ho,hl⟩
  | succ n ih =>
    cases l with
    | nil => exact ⟨ho,hl⟩
    | cons a l =>
      rw [postpone]
      split
      next => exact ih (ho.tail.enter (next a)) (kept_entered hP hl)
      next => exact ⟨ho,hl⟩

omit hP in
theorem postpone_ne_nil (n : Nat) (h : l ≠ []) : postpone date next bound n l ≠ [] := by
  induction n generalizing l with
  | zero => exact h
  | succ n ih =>
    cases l with
    | nil => exact absurd rfl h
    | cons a l =>
      rw [postpone]
      split
      next => exact ih (List.ne_nil_of_mem (mem_enter.mpr (.inl rfl)))
      next => exact h

omit hP in
/-- What is there afterwards was there before, or is one of these moved on. -/
theorem moved_of_mem_postpone (n : Nat) (hb : b ∈ postpone date next bound n l) :
    ∃ a ∈ l, Moved date next bound a b := by
  induction n generalizing l with
  | zero => exact ⟨b,hb,.refl b⟩
  | succ n ih =>
    cases l with
    | nil => cases hb
    | cons a l =>
      rw [postpone] at hb
      split at hb
      next hlt =>
        obtain ⟨c,hc,hm⟩ := ih hb
        rcases mem_enter.mp hc with rfl | hc
        · exact ⟨a,List.mem_cons_self,hm.step hlt⟩
        · exact ⟨c,List.mem_cons_of_mem _ hc,hm⟩
      next => exact ⟨b,hb,.refl b⟩

omit hP in
/-- No entry is lost. -/
theorem mem_postpone_of_mem (n : Nat) (ha : a ∈ l) :
    ∃ b ∈ postpone date next bound n l, Moved date next bound a b := by
  induction n generalizing l a with
  | zero => exact ⟨a,ha,.refl a⟩
  | succ n ih =>
    cases l with
    | nil => cases ha
    | cons c l =>
      rw [postpone]
      split
      next hlt =>
        rcases List.mem_cons.mp ha with rfl | ha
        · obtain ⟨b,hb,hm⟩ := ih (mem_enter.mpr (.inl rfl))
          exact ⟨b,hb,hm.step hlt⟩
        · exact ih (mem_enter.mpr (.inr ha))
      next => exact ⟨a,ha,.refl a⟩

omit hP in
/-- Afterwards there are the entries of before, each of them moved on or not. -/
theorem postpone_perm (n : Nat) :
    ∃ l', List.Forall₂ (Moved date next bound) l l' ∧ l'.Perm (postpone date next bound n l) := by
  induction n generalizing l with
  | zero => exact ⟨l,List.forall₂_same.mpr (fun a _ => .refl a),.refl l⟩
  | succ n ih =>
    cases l with
    | nil => exact ⟨[],.nil,.refl []⟩
    | cons a l =>
      rw [postpone]
      split
      next hlt =>
        obtain ⟨l',hmoved,hperm⟩ := @ih (enter date (next a) l)
        obtain ⟨l'',hmoved,hperm'⟩ := List.perm_comp_forall₂ (perm_enter (next a) l).symm hmoved
        cases hmoved with
        | cons ha hl => exact ⟨_,.cons (ha.step hlt) hl,hperm'.trans hperm⟩
      next => exact ⟨a :: l,List.forall₂_same.mpr (fun a _ => .refl a),.refl _⟩

theorem behind_entered (ha : P a) (hlt : date a < bound) :
    behind date bound (enter date (next a) l) < behind date bound (a :: l) := by
  have hnext := (hP a ha).2
  have hsum : behind date bound (enter date (next a) l) = behind date bound (next a :: l) :=
    ((perm_enter (next a) l).map _).sum_nat
  rw [hsum]
  simp only [behind,List.map_cons,List.sum_cons]
  omega

/-- With so many rounds the loop ends, and nothing is left before the bound. -/
theorem postpone_done (ho : InOrder date l) (hl : ∀ a ∈ l, P a) (hn : behind date bound l ≤ n)
    (hb : b ∈ postpone date next bound n l) : bound ≤ date b := by
  induction n generalizing l with
  | zero =>
    have hzero := List.sum_eq_zero_iff_forall_eq_nat.mp (Nat.le_zero.mp hn)
    have hb0 : (bound - date b).toNat = 0 := hzero _ (List.mem_map_of_mem hb)
    omega
  | succ n ih =>
    cases l with
    | nil => cases hb
    | cons a l =>
      rw [postpone] at hb
      split at hb
      next hlt =>
        have hless := behind_entered (l := l) hP (hl a List.mem_cons_self) hlt
        exact ih (ho.tail.enter (next a)) (kept_entered hP hl) (by omega) hb
      next hle =>
        have := ho.head_le hb
        omega

theorem postpone_enough {m : Nat} (ho : InOrder date l) (hl : ∀ a ∈ l, P a) (hn : behind date bound l ≤ n)
    (hm : behind date bound l ≤ m) : postpone date next bound n l = postpone date next bound m l := by
  induction n generalizing l m with
  | zero =>
    cases l with
    | nil => cases m <;> rfl
    | cons a l =>
      have ha := postpone_done hP ho hl hn List.mem_cons_self
      cases m with
      | zero => rfl
      | succ m => rw [postpone,postpone,if_neg (by omega)]
  | succ n ih =>
    cases l with
    | nil => cases m <;> rfl
    | cons a l =>
      rw [postpone]
      split
      next hlt =>
        have hless := behind_entered (l := l) hP (hl a List.mem_cons_self) hlt
        obtain ⟨m,rfl⟩ := Nat.exists_eq_succ_of_ne_zero (n := m) (by omega)
        rw [postpone,if_pos hlt]
        exact ih (ho.tail.enter (next a)) (kept_entered hP hl) (by omega) (by omega)
      next hge =>
        cases m with
        | zero => rfl
        | succ m => rw [postpone,if_neg hge]

/-- Exactly those entries end at the bound that have it among their dates. -/
theorem postpone_at_bound (ho : InOrder date l) (hl : ∀ a ∈ l, P a) (hn : behind date bound l ≤ n) :
    (∃ b ∈ postpone date next bound n l, date b = bound) ↔ ∃ a ∈ l, ∃ k, date (next^[k] a) = bound := by
  constructor
  · rintro ⟨b,hb,hd⟩
    obtain ⟨a,ha,k,rfl,-⟩ := moved_of_mem_postpone n hb
    exact ⟨a,ha,k,hd⟩
  · rintro ⟨a,ha,k,hd⟩
    obtain ⟨b,hb,i,rfl,hi⟩ := mem_postpone_of_mem n ha
    refine ⟨_,hb,?_⟩
    have hle := postpone_done hP ho hl hn hb
    rcases Nat.lt_trichotomy i k with hik | rfl | hki
    · have := date_iterate_lt hP (hl a ha) hik
      omega
    · exact hd
    · have := hi k hki
      omega

end Postpone

end CppTango.Lib
