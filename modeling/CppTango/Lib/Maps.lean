import Mathlib.Algebra.BigOperators.Group.List.Basic
import Mathlib.Algebra.Order.Group.Multiset
import Mathlib.Data.Finset.Erase
import Mathlib.Data.List.AList

namespace CppTango.Lib

section Maps
variable {κ β γ : Type} [DecidableEq κ] {m : AList (fun _ : κ => β)} {k : κ} {v : β}

/-- `std::map::insert`: an entry that is there stays. -/
def insertNew (k : κ) (v : β) (m : AList (fun _ : κ => β)) : AList (fun _ : κ => β) :=
  if k ∈ m then m else m.insert k v

theorem insertNew_of_notMem (h : k ∉ m) : insertNew k v m = m.insert k v := if_neg h

theorem mem_insertNew {j : κ} : j ∈ insertNew k v m ↔ j = k ∨ j ∈ m := by
  unfold insertNew
  split
  · rename_i hk
    refine ⟨.inr,?_⟩
    rintro (rfl | hj)
    · exact hk
    · exact hj
  · exact AList.mem_insert m

theorem mem_of_lookup (h : m.lookup k = some v) : k ∈ m := AList.lookup_isSome.mp (by rw [h]; rfl)

theorem erase_of_notMem (h : k ∉ m) : m.erase k = m :=
  AList.ext (List.kerase_of_notMem_keys h)

theorem lookup_insert_iff {j : κ} {w : β} :
    (m.insert k v).lookup j = some w ↔ (j = k ∧ v = w) ∨ (j ≠ k ∧ m.lookup j = some w) := by
  by_cases hj : j = k
  · subst hj
    simp [AList.lookup_insert]
  · simp [AList.lookup_insert_ne hj,hj]

theorem lookup_erase_iff {j : κ} {w : β} :
    (m.erase k).lookup j = some w ↔ j ≠ k ∧ m.lookup j = some w := by
  by_cases hj : j = k
  · subst hj
    simp [AList.lookup_erase]
  · simp [AList.lookup_erase_ne hj,hj]

theorem entries_perm_erase (h : m.lookup k = some v) :
    m.entries.Perm (⟨k,v⟩ :: (m.erase k).entries) := by
  obtain ⟨b,l₁,l₂,hk,he,herase⟩ := List.exists_of_kerase (AList.mem_keys.mp (mem_of_lookup h))
  have hv := (List.mem_dlookup_iff m.nodupKeys).mpr (he ▸ List.mem_append_right l₁ List.mem_cons_self)
  cases h.symm.trans hv
  change m.entries.Perm (⟨k,v⟩ :: List.kerase k m.entries)
  rw [herase,he]
  exact List.perm_middle

/-- What the values of a map hold together. -/
def held (f : β → Multiset γ) (m : AList (fun _ : κ => β)) : Multiset γ :=
  (m.entries.map (fun e => f e.2)).sum

variable {f : β → Multiset γ}

theorem held_erase (h : m.lookup k = some v) : held f m = f v + held f (m.erase k) := by
  unfold held
  rw [List.Perm.sum_eq ((entries_perm_erase h).map _)]
  rfl

theorem held_keys (f : β → Multiset γ) (m : AList (fun _ : κ => β)) (d : β) :
    held f m = (m.keys.map (fun k => f ((m.lookup k).getD d))).sum := by
  unfold held
  change _ = ((m.entries.map Sigma.fst).map _).sum
  rw [List.map_map]
  congr 1
  apply List.map_congr_left
  intro e he
  have hl : m.lookup e.1 = some e.2 := (List.mem_dlookup_iff m.nodupKeys).mpr he
  rw [Function.comp_apply,hl,Option.getD_some]

theorem held_insert : held f (m.insert k v) = f v + held f (m.erase k) := by
  unfold held
  rw [AList.entries_insert]
  rfl

theorem held_insert_new (h : k ∉ m) : held f (m.insert k v) = f v + held f m := by
  rw [held_insert,erase_of_notMem h]

theorem countP_keys_erase (p : κ → Bool) (h : k ∈ m) :
    m.keys.countP p = (m.erase k).keys.countP p + if p k then 1 else 0 := by
  obtain ⟨v,hv⟩ := Option.isSome_iff_exists.mp (AList.lookup_isSome.mpr h)
  have hp : m.keys.Perm (k :: (m.erase k).keys) := (entries_perm_erase hv).map Sigma.fst
  rw [hp.countP_eq,List.countP_cons]

end Maps

section Uses
variable {α δ : Type} [DecidableEq δ] {S : Finset δ} {P Q : α → Prop} {f : α → δ}

/-- A set of what is in use stays so when some uses of `c` end, if `c` is taken out with its last use. -/
theorem mem_uses {c : δ} (hS : ∀ d, d ∈ S ↔ ∃ a, P a ∧ f a = d) (hsub : ∀ a, Q a → P a)
    (hrest : ∀ a, P a → Q a ∨ f a = c) {used : Prop} [Decidable used] (hused : used ↔ ∃ a, Q a ∧ f a = c)
    (d : δ) : d ∈ (if used then S else S.erase c) ↔ ∃ a, Q a ∧ f a = d := by
  by_cases hd : d = c
  · subst hd
    rw [← hused]
    split
    · rename_i hu
      obtain ⟨a,ha,he⟩ := hused.mp hu
      exact iff_of_true ((hS d).mpr ⟨a,hsub a ha,he⟩) hu
    · rename_i hu
      exact iff_of_false (Finset.notMem_erase d S) hu
  · have hmem : d ∈ (if used then S else S.erase c) ↔ d ∈ S := by
      split
      · rfl
      · rw [Finset.mem_erase,and_iff_right hd]
    rw [hmem,hS]
    constructor
    · rintro ⟨a,ha,he⟩
      exact ⟨a,(hrest a ha).resolve_right (fun h => hd (he ▸ h)),he⟩
    · rintro ⟨a,ha,he⟩
      exact ⟨a,hsub a ha,he⟩

end Uses

end CppTango.Lib
