import Mathlib.Logic.Function.Basic

namespace CppTango.Lib

/-- A cell of a store: not allocated, in use, or given back. -/
inductive Cell (α : Type)
  | absent
  | live (a : α)
  | released

/-- A store that allocates cells one after the other and uses none twice. -/
structure Store (α : Type) where
  cell : Nat → Cell α
  next : Nat

namespace Store
variable {α : Type}

def empty : Store α := ⟨fun _ => .absent,0⟩

def get (s : Store α) (a : Nat) : Option α :=
  match s.cell a with
  | .live x => some x
  | _ => none

/-- The new cell is the one with number `next`. -/
def alloc (x : α) (s : Store α) : Store α := ⟨Function.update s.cell s.next (.live x),s.next + 1⟩

def put (a : Nat) (x : α) (s : Store α) : Store α := { s with cell := Function.update s.cell a (.live x) }

def release (a : Nat) (s : Store α) : Store α := { s with cell := Function.update s.cell a .released }

theorem get_update {s : Store α} {a b n : Nat} {c : Cell α} :
    (⟨Function.update s.cell a c,n⟩ : Store α).get b =
      if b = a then (match c with | .live x => some x | _ => none) else s.get b := by
  unfold get
  by_cases h : b = a
  · subst h
    simp only [Function.update_self,if_true]
  · simp only [Function.update_of_ne h,if_neg h]

theorem get_alloc {s : Store α} {x : α} {b : Nat} :
    (s.alloc x).get b = if b = s.next then some x else s.get b := get_update

theorem get_put {s : Store α} {x : α} {a b : Nat} : (s.put a x).get b = if b = a then some x else s.get b := get_update

theorem get_release {s : Store α} {a b : Nat} : (s.release a).get b = if b = a then none else s.get b := get_update

end Store

/-- A cell is held by nobody else at all, by its owner, or by a guest of its owner. -/
inductive Hold
  | sole | owner | guest
deriving DecidableEq

structure Ref where
  addr : Nat
  hold : Hold
deriving DecidableEq

/-- What is held is live; a sole holder shares with nobody and an owner with no other owner. -/
structure Held {α ι : Type} (s : Store α) (refs : ι → Option Ref) : Prop where
  live : ∀ {i r}, refs i = some r → (s.get r.addr).isSome = true
  old : ∀ {a}, (s.get a).isSome = true → a < s.next
  sole : ∀ {i j r q}, refs i = some r → refs j = some q → r.hold = .sole → q.addr = r.addr → i = j
  owner : ∀ {i j r q}, refs i = some r → refs j = some q → r.hold = .owner → q.hold = .owner → q.addr = r.addr → i = j

namespace Held
variable {α ι : Type} {s : Store α} {refs refs' : ι → Option Ref}

theorem empty : Held (Store.empty : Store α) (fun _ : ι => none) where
  live h := by cases h
  old h := by cases h
  sole h := by cases h
  owner h := by cases h

/-- Holders may go, change their places, and become guests. -/
theorem mono (h : Held s refs) (f : ι → ι)
    (hf : ∀ {i r}, refs' i = some r → ∃ hold, refs (f i) = some ⟨r.addr,hold⟩ ∧
      (r.hold = hold ∨ hold = .owner ∧ r.hold = .guest))
    (inj : ∀ {i j r q}, refs' i = some r → refs' j = some q → f i = f j → i = j) : Held s refs' where
  live hi := by
    obtain ⟨hold,hr,-⟩ := hf hi
    exact h.live (r := ⟨_,hold⟩) hr
  old := h.old
  sole := by
    intro i j r q hi hj hs ha
    obtain ⟨hold,hr,hk⟩ := hf hi
    obtain ⟨hold',hq,-⟩ := hf hj
    refine inj hi hj (h.sole hr hq ?_ ha)
    rcases hk with hk | ⟨-,hk⟩
    · exact hk.symm.trans hs
    · cases hk.symm.trans hs
  owner := by
    intro i j r q hi hj hs hs' ha
    obtain ⟨hold,hr,hk⟩ := hf hi
    obtain ⟨hold',hq,hk'⟩ := hf hj
    refine inj hi hj (h.owner hr hq ?_ ?_ ha)
    · rcases hk with hk | ⟨-,hk⟩
      · exact hk.symm.trans hs
      · cases hk.symm.trans hs
    · rcases hk' with hk' | ⟨-,hk'⟩
      · exact hk'.symm.trans hs'
      · cases hk'.symm.trans hs'

/-- Holders go. -/
theorem sub (h : Held s refs) (hf : ∀ {i r}, refs' i = some r → refs i = some r) : Held s refs' :=
  h.mono id (fun hi => ⟨_,hf hi,.inl rfl⟩) (fun _ _ he => he)

theorem put (h : Held s refs) {a : Nat} (ha : (s.get a).isSome = true) (x : α) : Held (s.put a x) refs where
  live hr := by
    rw [Store.get_put]
    split
    · rfl
    · exact h.live hr
  old := by
    intro b hb
    rw [Store.get_put] at hb
    split at hb
    next heq =>
      subst heq
      exact h.old ha
    next => exact h.old hb
  sole := h.sole
  owner := h.owner

/-- A cell is given back when nobody holds it any more. -/
theorem release (h : Held s refs) {a : Nat} (ha : ∀ {i r}, refs i = some r → r.addr ≠ a) : Held (s.release a) refs where
  live hr := by
    rw [Store.get_release,if_neg (ha hr)]
    exact h.live hr
  old := by
    intro b hb
    rw [Store.get_release] at hb
    split at hb
    · cases hb
    · exact h.old hb
  sole := h.sole
  owner := h.owner

variable [DecidableEq ι] {k : ι}

theorem update_other {v : Option Ref} {i : ι} {r : Ref} (hi : i ≠ k) (hr : Function.update refs k v i = some r) :
    refs i = some r := by rwa [Function.update_of_ne hi] at hr

theorem drop (h : Held s refs) (k : ι) : Held s (Function.update refs k none) := by
  apply h.sub
  intro i r hr
  by_cases hi : i = k
  · subst hi
    rw [Function.update_self] at hr
    cases hr
  · exact update_other hi hr

/-- A holder comes for a new cell. -/
theorem alloc (h : Held s refs) (k : ι) (x : α) (hold : Hold) :
    Held (s.alloc x) (Function.update refs k (some ⟨s.next,hold⟩)) := by
  have hk : Function.update refs k (some ⟨s.next,hold⟩) k = some ⟨s.next,hold⟩ := Function.update_self ..
  have hlt : ∀ {i r}, i ≠ k → Function.update refs k (some ⟨s.next,hold⟩) i = some r → r.addr < s.next :=
    fun hi hr => h.old (h.live (update_other hi hr))
  constructor
  · intro i r hr
    rw [Store.get_alloc]
    by_cases hi : i = k
    · subst hi
      cases hk.symm.trans hr
      rw [if_pos rfl]
      rfl
    · rw [if_neg (Nat.ne_of_lt (hlt hi hr))]
      exact h.live (update_other hi hr)
  · intro a ha
    rw [Store.get_alloc] at ha
    split at ha
    next heq => exact heq ▸ Nat.lt_succ_self _
    next => exact Nat.lt_succ_of_lt (h.old ha)
  · intro i j r q hr hq hs ha
    by_cases hi : i = k <;> by_cases hj : j = k
    · exact hi.trans hj.symm
    · subst hi
      cases hk.symm.trans hr
      exact absurd ha (Nat.ne_of_lt (hlt hj hq))
    · subst hj
      cases hk.symm.trans hq
      exact absurd ha.symm (Nat.ne_of_lt (hlt hi hr))
    · exact h.sole (update_other hi hr) (update_other hj hq) hs ha
  · intro i j r q hr hq hs hs' ha
    by_cases hi : i = k <;> by_cases hj : j = k
    · exact hi.trans hj.symm
    · subst hi
      cases hk.symm.trans hr
      exact absurd ha (Nat.ne_of_lt (hlt hj hq))
    · subst hj
      cases hk.symm.trans hq
      exact absurd ha.symm (Nat.ne_of_lt (hlt hi hr))
    · exact h.owner (update_other hi hr) (update_other hj hq) hs hs' ha

/-- A guest comes to a cell that has no sole holder. -/
theorem lend (h : Held s refs) (k i : ι) {a : Nat} {hold : Hold} (hi : refs i = some ⟨a,hold⟩) (hs : hold ≠ .sole) :
    Held s (Function.update refs k (some ⟨a,.guest⟩)) := by
  have hk : Function.update refs k (some ⟨a,.guest⟩) k = some ⟨a,.guest⟩ := Function.update_self ..
  constructor
  · intro j q hq
    by_cases hj : j = k
    · subst hj
      cases hk.symm.trans hq
      exact h.live (r := ⟨a,hold⟩) hi
    · exact h.live (update_other hj hq)
  · exact h.old
  · intro j j' q q' hq hq' hsole ha
    by_cases hj : j = k
    · subst hj
      cases hk.symm.trans hq
      cases hsole
    · by_cases hj' : j' = k
      · subst hj'
        cases hk.symm.trans hq'
        have hij := h.sole (update_other hj hq) hi hsole ha
        subst hij
        cases hi.symm.trans (update_other hj hq)
        exact absurd hsole hs
      · exact h.sole (update_other hj hq) (update_other hj' hq') hsole ha
  · intro j j' q q' hq hq' ho ho' ha
    by_cases hj : j = k
    · subst hj
      cases hk.symm.trans hq
      cases ho
    · by_cases hj' : j' = k
      · subst hj'
        cases hk.symm.trans hq'
        cases ho'
      · exact h.owner (update_other hj hq) (update_other hj' hq') ho ho' ha

/-- A holder becomes the owner of a cell that has no other. -/
theorem own (h : Held s refs) (k : ι) {a : Nat} {hold : Hold} (hi : refs k = some ⟨a,hold⟩)
    (hown : ∀ {j q}, j ≠ k → refs j = some q → q.hold = .owner → q.addr ≠ a) :
    Held s (Function.update refs k (some ⟨a,.owner⟩)) := by
  have hk : Function.update refs k (some ⟨a,.owner⟩) k = some ⟨a,.owner⟩ := Function.update_self ..
  constructor
  · intro j q hq
    by_cases hj : j = k
    · subst hj
      cases hk.symm.trans hq
      exact h.live (r := ⟨a,hold⟩) hi
    · exact h.live (update_other hj hq)
  · exact h.old
  · intro j j' q q' hq hq' hsole ha
    by_cases hj : j = k
    · subst hj
      cases hk.symm.trans hq
      cases hsole
    · by_cases hj' : j' = k
      · subst hj'
        cases hk.symm.trans hq'
        exact h.sole (update_other hj hq) hi hsole ha
      · exact h.sole (update_other hj hq) (update_other hj' hq') hsole ha
  · intro j j' q q' hq hq' ho ho' ha
    by_cases hj : j = k <;> by_cases hj' : j' = k
    · exact hj.trans hj'.symm
    · subst hj
      cases hk.symm.trans hq
      exact absurd ha (hown hj' (update_other hj' hq') ho')
    · subst hj'
      cases hk.symm.trans hq'
      exact absurd ha.symm (hown hj (update_other hj hq) ho)
    · exact h.owner (update_other hj hq) (update_other hj' hq') ho ho' ha

/-- A holder goes to the place of another one, which stays when there is none to come. -/
theorem take (h : Held s refs) (k i : ι) :
    Held s (Function.update (Function.update refs k ((refs i).or (refs k))) i none) := by
  cases hi : refs i with
  | none =>
    rw [Option.none_or,Function.update_eq_self]
    exact h.drop i
  | some v =>
    rw [Option.some_or]
    refine h.mono (fun j => if j = k then i else j) ?_ ?_
    · intro j r hr
      have hj : j ≠ i := by
        rintro rfl
        rw [Function.update_self] at hr
        cases hr
      have hr := update_other hj hr
      refine ⟨r.hold,?_,.inl rfl⟩
      by_cases hk : j = k
      · subst hk
        rw [Function.update_self] at hr
        rw [if_pos rfl,hi]
        exact hr
      · rw [if_neg hk]
        exact update_other hk hr
    · intro j j' r q hr hq he
      have hj : j ≠ i := by
        rintro rfl
        rw [Function.update_self] at hr
        cases hr
      have hj' : j' ≠ i := by
        rintro rfl
        rw [Function.update_self] at hq
        cases hq
      by_cases hk : j = k <;> by_cases hk' : j' = k
      · exact hk.trans hk'.symm
      · rw [if_pos hk,if_neg hk'] at he
        exact absurd he.symm hj'
      · rw [if_neg hk,if_pos hk'] at he
        exact absurd he hj
      · rwa [if_neg hk,if_neg hk'] at he

end Held

end CppTango.Lib
