import Mathlib.Data.List.Nodup
import Mathlib.Data.List.Perm.Basic

namespace CppTango.Lib

section Keyed
variable {α κ : Type} [DecidableEq κ] (key : α → κ)

/-- What is left of a list without the elements of one key. -/
def without (k : κ) (l : List α) : List α := l.filter (fun b => key b ≠ k)

variable {key}

theorem mem_without {k : κ} {l : List α} {b : α} : b ∈ without key k l ↔ b ∈ l ∧ key b ≠ k := by
  simp [without]

theorem not_mem_without (k : κ) (l : List α) : k ∉ (without key k l).map key := by
  intro h
  obtain ⟨b,hb,he⟩ := List.mem_map.mp h
  exact (mem_without.mp hb).2 he

/-- Keys that are all different pick out one element. -/
theorem perm_without {l : List α} (hn : (l.map key).Nodup) {a : α} (ha : a ∈ l) :
    l.Perm (a :: without key (key a) l) := by
  induction l with
  | nil => cases ha
  | cons b l ih =>
    obtain ⟨hb,hl⟩ := List.nodup_cons.mp hn
    by_cases he : key b = key a
    · have hab : a = b := by
        rcases List.mem_cons.mp ha with h | h
        · exact h
        · exact absurd (List.mem_map.mpr ⟨a,h,he.symm⟩) hb
      subst a
      have hrest : without key (key b) l = l := by
        apply List.filter_eq_self.mpr
        intro c hc
        have hne : key c ≠ key b := fun h => hb (List.mem_map.mpr ⟨c,hc,h⟩)
        simpa using hne
      have hcons : without key (key b) (b :: l) = without key (key b) l := by simp [without]
      rw [hcons,hrest]
    · have hal : a ∈ l := by
        rcases List.mem_cons.mp ha with h | h
        · exact absurd (by rw [h]) he
        · exact h
      have hcons : without key (key a) (b :: l) = b :: without key (key a) l := by
        simp [without,he]
      rw [hcons]
      exact ((ih hl hal).cons b).trans (List.Perm.swap a b _)

theorem nodup_without (k : κ) {l : List α} (hn : (l.map key).Nodup) :
    ((without key k l).map key).Nodup :=
  hn.sublist (List.filter_sublist.map key)

/-- Erasing the first element of a key erases them all. -/
theorem eraseP_eq_without {l : List α} (hn : (l.map key).Nodup) (k : κ) :
    l.eraseP (fun b => key b = k) = without key k l := by
  induction l with
  | nil => rfl
  | cons b l ih =>
    obtain ⟨hb,hl⟩ := List.nodup_cons.mp hn
    by_cases he : key b = k
    · have hrest : without key k l = l := by
        apply List.filter_eq_self.mpr
        intro c hc
        have hne : key c ≠ k := fun h => hb (List.mem_map.mpr ⟨c,hc,h.trans he.symm⟩)
        simpa using hne
      have hcons : without key k (b :: l) = without key k l := by simp [without,he]
      rw [List.eraseP_cons_of_pos (by simpa using he),hcons,hrest]
    · have hcons : without key k (b :: l) = b :: without key k l := by simp [without,he]
      rw [List.eraseP_cons_of_neg (by simpa using he),hcons,ih hl]

/-- Exchanging the one element of a key for another of the same key. -/
theorem perm_exchange {l : List α} (hn : (l.map key).Nodup) {a : α} (ha : a ∈ l) (a' : α) :
    (l.map (fun b => if key b = key a then a' else b)).Perm (a' :: without key (key a) l) := by
  refine ((perm_without hn ha).map _).trans ?_
  have hrest : (without key (key a) l).map (fun b => if key b = key a then a' else b) =
      without key (key a) l := by
    calc (without key (key a) l).map (fun b => if key b = key a then a' else b)
        = (without key (key a) l).map id :=
          List.map_congr_left (fun b hb => if_neg (mem_without.mp hb).2)
      _ = without key (key a) l := List.map_id _
  simp [hrest]

end Keyed

section Layers
variable {α κ : Type} [DecidableEq κ] (key : α → κ)

/-- The first element of a key. -/
def atKey (k : κ) (l : List α) : Option α := l.find? (fun a => key a = k)

/-- Elements are added one by one, unless their key is there already. -/
def addMissing (l xs : List α) : List α :=
  xs.foldl (fun l x => if (atKey key (key x) l).isSome then l else l ++ [x]) l

/-- The elements whose key is not in `l` are added, all at once. -/
def overlay (l xs : List α) : List α :=
  l ++ xs.filter (fun x => (atKey key (key x) l).isNone)

variable {key}

theorem atKey_append (k : κ) (l xs : List α) :
    atKey key k (l ++ xs) = (atKey key k l).or (atKey key k xs) := by
  simp [atKey,List.find?_append]

theorem atKey_singleton (k : κ) (a : α) :
    atKey key k [a] = if key a = k then some a else none := by
  simp only [atKey,List.find?_cons,List.find?_nil]
  split <;> simp_all

theorem atKey_cons (k : κ) (a : α) (l : List α) :
    atKey key k (a::l) = if key a = k then some a else atKey key k l := by
  simp only [atKey,List.find?_cons]
  split <;> simp_all

/-- What is added is found below what was there. -/
theorem atKey_addMissing (k : κ) (l xs : List α) :
    atKey key k (addMissing key l xs) = (atKey key k l).or (atKey key k xs) := by
  induction xs generalizing l with
  | nil => simp [addMissing,atKey]
  | cons x xs ih =>
    have hstep : addMissing key l (x::xs) =
        addMissing key (if (atKey key (key x) l).isSome then l else l ++ [x]) xs := rfl
    rw [hstep,ih,atKey_cons]
    by_cases hk : key x = k
    · subst hk
      rw [if_pos rfl]
      cases hl : atKey key (key x) l with
      | some a => simp [hl]
      | none => simp [hl,atKey_append,atKey_singleton]
    · rw [if_neg hk]
      split
      · rfl
      · rw [atKey_append,atKey_singleton,if_neg hk,Option.or_none]

theorem atKey_overlay (k : κ) (l xs : List α) :
    atKey key k (overlay key l xs) = (atKey key k l).or (atKey key k xs) := by
  unfold overlay
  rw [atKey_append]
  cases hl : atKey key k l with
  | some a => rfl
  | none =>
    simp only [Option.none_or]
    induction xs with
    | nil => rfl
    | cons x xs ih =>
      rw [List.filter_cons,atKey_cons]
      by_cases hk : key x = k
      · subst hk
        rw [if_pos rfl,hl]
        simp [atKey_cons]
      · rw [if_neg hk]
        split
        · rw [atKey_cons,if_neg hk,ih]
        · exact ih

theorem atKey_without (k k' : κ) (l : List α) :
    atKey key k (without key k' l) = if k = k' then none else atKey key k l := by
  induction l with
  | nil => simp [atKey,without]
  | cons a l ih =>
    unfold without at *
    rw [List.filter_cons]
    by_cases ha : key a = k'
    · rw [if_neg (by simp [ha]),ih,atKey_cons]
      by_cases hk : k = k'
      · rw [if_pos hk,if_pos hk]
      · rw [if_neg hk,if_neg hk,if_neg (fun h => hk (h.symm.trans ha))]
    · rw [if_pos (by simpa using ha),atKey_cons,atKey_cons,ih]
      by_cases hk : key a = k
      · rw [if_pos hk,if_pos hk,if_neg (fun h => ha (hk.trans h))]
      · rw [if_neg hk,if_neg hk]

end Layers

section Assoc
variable {α κ : Type}

/-- Change the first element found. -/
@[grind =] def updateFirst (p : α → Bool) (f : α → α) : List α → List α
  | [] => []
  | a :: l => if p a then f a :: l else a :: updateFirst p f l

/-- Change the first element found, or add one. -/
def putFirst (p : α → Bool) (f : α → α) (a : α) (l : List α) : List α :=
  if l.any p then updateFirst p f l else l ++ [a]

variable {key : α → κ} {p : α → Bool} {f : α → α} {k : κ}

/-- A predicate that tells one key of a list. -/
def Picks (key : α → κ) (p : α → Bool) (k : κ) (l : List α) : Prop := ∀ a ∈ l, p a = true ↔ key a = k

theorem Picks.tail {a : α} {l : List α} (h : Picks key p k (a :: l)) : Picks key p k l :=
  fun b hb => h b (List.mem_cons_of_mem _ hb)

theorem keys_updateFirst {l : List α} (hf : ∀ a, key (f a) = key a) :
    (updateFirst p f l).map key = l.map key := by
  induction l with
  | nil => rfl
  | cons a l ih =>
    rw [updateFirst]
    split
    · rw [List.map_cons,List.map_cons,hf]
    · rw [List.map_cons,List.map_cons,ih]

theorem map_updateFirst {β : Type} {g : β → α} {q : β → Bool} {f' : β → β} (hq : ∀ b, q b = p (g b))
    (hf : ∀ b, g (f' b) = f (g b)) (l : List β) :
    (updateFirst q f' l).map g = updateFirst p f (l.map g) := by
  induction l with
  | nil => rfl
  | cons b l ih =>
    rw [updateFirst,List.map_cons,updateFirst,hq]
    split
    · rw [List.map_cons,hf]
    · rw [List.map_cons,ih]

theorem updateFirst_congr {g : α → α} {l : List α} {a : α} (h : l.find? p = some a) (he : f a = g a) :
    updateFirst p f l = updateFirst p g l := by
  induction l with
  | nil => rfl
  | cons b l ih =>
    rw [updateFirst,updateFirst]
    by_cases hb : p b = true
    · rw [List.find?_cons_of_pos hb,Option.some.injEq] at h
      rw [if_pos hb,if_pos hb,h,he]
    · rw [List.find?_cons_of_neg hb] at h
      rw [if_neg hb,if_neg hb,ih h]

theorem updateFirst_append {l : List α} (h : l.any p = false) (a : α) (ha : p a = true) :
    updateFirst p f (l ++ [a]) = l ++ [f a] := by
  induction l with
  | nil => simp [updateFirst,ha]
  | cons b l ih =>
    rw [List.any_cons,Bool.or_eq_false_iff] at h
    rw [List.cons_append,updateFirst,h.1,if_neg (by decide),ih h.2]
    rfl

theorem mem_updateFirst_found {l : List α} {b : α} (h : b ∈ updateFirst p f l) :
    b ∈ l ∨ ∃ a, l.find? p = some a ∧ b = f a := by
  induction l with
  | nil => cases h
  | cons a l ih =>
    rw [updateFirst] at h
    by_cases ha : p a = true
    · rw [if_pos ha] at h
      rcases List.mem_cons.mp h with rfl | h
      · exact .inr ⟨a,List.find?_cons_of_pos ha,rfl⟩
      · exact .inl (List.mem_cons_of_mem _ h)
    · rw [if_neg ha] at h
      rw [List.find?_cons_of_neg ha]
      rcases List.mem_cons.mp h with rfl | h
      · exact .inl List.mem_cons_self
      · exact (ih h).imp_left (List.mem_cons_of_mem _)

theorem mem_updateFirst {l : List α} {b : α} (h : b ∈ updateFirst p f l) :
    b ∈ l ∨ ∃ a ∈ l, p a = true ∧ b = f a := by
  rcases mem_updateFirst_found h with h | ⟨a,ha,rfl⟩
  · exact .inl h
  · exact .inr ⟨a,List.mem_of_find?_eq_some ha,List.find?_some ha,rfl⟩

theorem updateFirst_comp {g : α → α} (hf : ∀ a, p (f a) = p a) (l : List α) :
    updateFirst p g (updateFirst p f l) = updateFirst p (fun a => g (f a)) l := by
  induction l with
  | nil => rfl
  | cons a l ih =>
    rw [updateFirst,updateFirst]
    split
    · rename_i ha
      rw [updateFirst,hf,if_pos ha]
    · rename_i ha
      rw [updateFirst,if_neg ha,ih]

theorem updateFirst_id (hf : ∀ a, f a = a) (l : List α) : updateFirst p f l = l := by
  induction l with
  | nil => rfl
  | cons a l ih =>
    rw [updateFirst,hf,ih]
    split
    · rfl
    · rfl

theorem foldl_updateFirst {β : Type} {g : β → α → α} (hg : ∀ x a, p (g x a) = p a) (xs : List β) (l : List α) :
    xs.foldl (fun l x => updateFirst p (g x) l) l =
      updateFirst p (fun a => xs.foldl (fun a x => g x a) a) l := by
  induction xs generalizing l with
  | nil => exact (updateFirst_id (fun _ => rfl) l).symm
  | cons x xs ih => rw [List.foldl_cons,ih,updateFirst_comp (hg x)]; rfl

theorem mem_updateFirst_other {l : List α} {a : α} (ha : a ∈ l) (hp : p a = false) :
    a ∈ updateFirst p f l := by
  induction l with
  | nil => cases ha
  | cons b l ih =>
    rw [updateFirst]
    rcases List.mem_cons.mp ha with rfl | ha
    · rw [if_neg (by rw [hp]; exact Bool.false_ne_true)]
      exact List.mem_cons_self
    · split
      · exact List.mem_cons_of_mem _ ha
      · exact List.mem_cons_of_mem _ (ih ha)

theorem mem_updateFirst_self {l : List α} {a : α} (h : Picks key p k l) (hn : (l.map key).Nodup)
    (ha : a ∈ l) (hk : key a = k) : f a ∈ updateFirst p f l := by
  induction l with
  | nil => cases ha
  | cons b l ih =>
    rw [List.map_cons,List.nodup_cons] at hn
    rw [updateFirst]
    rcases List.mem_cons.mp ha with rfl | ha
    · rw [if_pos ((h a List.mem_cons_self).mpr hk)]
      exact List.mem_cons_self
    · split
      · rename_i hb
        have hkey := (h b List.mem_cons_self).mp hb
        rw [hkey,← hk] at hn
        exact absurd (List.mem_map_of_mem ha) hn.1
      · exact List.mem_cons_of_mem _ (ih h.tail hn.2 ha)

/-- The changed element and what is left of the list without it. -/
theorem perm_updateFirst [DecidableEq κ] {l : List α} {a : α} (h : Picks key p k l) (hn : (l.map key).Nodup)
    (ha : a ∈ l) (hk : key a = k) : (updateFirst p f l).Perm (f a :: without key k l) := by
  induction l with
  | nil => cases ha
  | cons b l ih =>
    obtain ⟨hb,hl⟩ := List.nodup_cons.mp hn
    rw [updateFirst]
    by_cases he : key b = k
    · have hba : b = a := by
        rcases List.mem_cons.mp ha with ha | ha
        · exact ha.symm
        · exact absurd (List.mem_map.mpr ⟨a,ha,hk.trans he.symm⟩) hb
      subst hba
      have hrest : without key k l = l := by
        apply List.filter_eq_self.mpr
        intro c hc
        have hne : key c ≠ k := fun hck => hb (List.mem_map.mpr ⟨c,hc,hck.trans he.symm⟩)
        simpa using hne
      have hcons : without key k (b :: l) = without key k l := by simp [without,he]
      rw [if_pos ((h b List.mem_cons_self).mpr he),hcons,hrest]
    · have hal : a ∈ l := (List.mem_cons.mp ha).resolve_left (fun hab => he (hab ▸ hk))
      have hcons : without key k (b :: l) = b :: without key k l := by simp [without,he]
      rw [if_neg (fun hp => he ((h b List.mem_cons_self).mp hp)),hcons]
      exact ((ih h.tail hl hal).cons b).trans (List.Perm.swap _ _ _)

/-- Erasing what is picked is erasing the key. -/
theorem eraseP_of_picks [DecidableEq κ] {l : List α} (h : Picks key p k l) (hn : (l.map key).Nodup) :
    l.eraseP p = without key k l := by
  induction l with
  | nil => rfl
  | cons a l ih =>
    by_cases ha : key a = k
    · rw [← eraseP_eq_without hn k,List.eraseP_cons_of_pos ((h a List.mem_cons_self).mpr ha),
        List.eraseP_cons_of_pos (by simpa using ha)]
    · have hp : ¬ p a = true := fun hp => ha ((h a List.mem_cons_self).mp hp)
      have hcons : without key k (a :: l) = a :: without key k l := by simp [without,ha]
      rw [List.eraseP_cons_of_neg hp,hcons,ih h.tail (List.nodup_cons.mp hn).2]

/-- Lists with the same keys, one in the other, are the same. -/
theorem eq_of_keys {l m : List α} (hkeys : l.map key = m.map key) (hn : (m.map key).Nodup)
    (hm : ∀ a ∈ m, a ∈ l) : l = m := by
  induction m generalizing l with
  | nil => exact List.map_eq_nil_iff.mp hkeys
  | cons b m ih =>
    cases l with
    | nil => cases hkeys
    | cons a l =>
      simp only [List.map_cons,List.cons.injEq] at hkeys
      rw [List.map_cons,List.nodup_cons] at hn
      obtain ⟨hab,hkeys⟩ := hkeys
      have hb : b = a := by
        rcases List.mem_cons.mp (hm b List.mem_cons_self) with hb | hb
        · exact hb
        · have := List.mem_map_of_mem (f := key) hb
          rw [hkeys] at this
          exact absurd this hn.1
      subst hb
      rw [ih hkeys hn.2]
      intro c hc
      rcases List.mem_cons.mp (hm c (List.mem_cons_of_mem _ hc)) with rfl | h
      · exact absurd (List.mem_map_of_mem hc) hn.1
      · exact h

/-- One update for each of some names: each reaches the element of its name, and the others stay. -/
theorem mem_foldl_updateFirst {ω : Type} {name : ω → κ} {q : ω → α → Bool} {g : ω → α → α} {os : List ω}
    {l : List α} (hg : ∀ o a, key (g o a) = key a) (hn : (l.map key).Nodup) (hos : (os.map name).Nodup)
    (hpick : ∀ o ∈ os, ∀ l', l'.map key = l.map key → Picks key (q o) (name o) l') :
    (os.foldl (fun l o => updateFirst (q o) (g o) l) l).map key = l.map key ∧
      (∀ o ∈ os, ∀ a ∈ l, key a = name o → g o a ∈ os.foldl (fun l o => updateFirst (q o) (g o) l) l) ∧
      ∀ a ∈ l, (∀ o ∈ os, key a ≠ name o) → a ∈ os.foldl (fun l o => updateFirst (q o) (g o) l) l := by
  induction os generalizing l with
  | nil => exact ⟨rfl,fun _ ho => absurd ho List.not_mem_nil,fun _ ha _ => ha⟩
  | cons o os ih =>
    rw [List.map_cons,List.nodup_cons] at hos
    have hkeys : (updateFirst (q o) (g o) l).map key = l.map key := keys_updateFirst (hg o)
    have hpo := hpick o List.mem_cons_self l rfl
    obtain ⟨hk,hdone,hkept⟩ := ih (hkeys ▸ hn) hos.2
      (fun o' ho' l' hl' => hpick o' (List.mem_cons_of_mem _ ho') l' (hl'.trans hkeys))
    have hother : ∀ a ∈ l, key a ≠ name o → a ∈ updateFirst (q o) (g o) l := by
      intro a ha hne
      apply mem_updateFirst_other ha
      rw [Bool.eq_false_iff]
      exact fun hq => hne ((hpo a ha).mp hq)
    refine ⟨hk.trans hkeys,?_,?_⟩
    · intro o' ho' a ha hka
      rcases List.mem_cons.mp ho' with rfl | ho'
      · apply hkept _ (mem_updateFirst_self hpo hn ha hka)
        intro o'' ho'' he
        rw [hg,hka] at he
        exact hos.1 (he ▸ List.mem_map_of_mem ho'')
      · apply hdone o' ho' a (hother a ha ?_) hka
        intro he
        exact hos.1 (he ▸ hka ▸ List.mem_map_of_mem ho')
    · intro a ha hne
      exact hkept a (hother a ha (hne o List.mem_cons_self))
        (fun o' ho' => hne o' (List.mem_cons_of_mem _ ho'))

variable [DecidableEq κ]

theorem find_of_picks {l : List α} (h : Picks key p k l) : l.find? p = atKey key k l := by
  induction l with
  | nil => rfl
  | cons a l ih =>
    rw [atKey_cons,List.find?_cons]
    by_cases ha : key a = k
    · rw [if_pos ha,(h a List.mem_cons_self).mpr ha]
    · have hp : p a = false := by
        rw [Bool.eq_false_iff]
        exact fun he => ha ((h a List.mem_cons_self).mp he)
      rw [if_neg ha,hp]
      exact ih h.tail

theorem any_of_picks {l : List α} (h : Picks key p k l) : l.any p = (atKey key k l).isSome := by
  rw [← find_of_picks h,Bool.eq_iff_iff,List.any_eq_true,List.find?_isSome]

theorem atKey_updateFirst {l : List α} (h : Picks key p k l) (hf : ∀ a, key (f a) = key a) (k' : κ) :
    atKey key k' (updateFirst p f l) = if k' = k then (atKey key k l).map f else atKey key k' l := by
  induction l with
  | nil => simp [updateFirst,atKey]
  | cons a l ih =>
    rw [updateFirst]
    by_cases ha : key a = k
    · rw [(h a List.mem_cons_self).mpr ha,if_pos rfl,atKey_cons,atKey_cons,atKey_cons,hf,ha,if_pos rfl]
      by_cases hk : k' = k
      · rw [hk,if_pos rfl,if_pos rfl]
        rfl
      · rw [if_neg (Ne.symm hk),if_neg hk,if_neg (Ne.symm hk)]
    · have hp : p a = false := by
        rw [Bool.eq_false_iff]
        exact fun he => ha ((h a List.mem_cons_self).mp he)
      rw [hp,if_neg (by decide),atKey_cons,atKey_cons,atKey_cons,ih h.tail,if_neg ha]
      by_cases hk : k' = k
      · rw [hk,if_neg ha,if_pos rfl,if_pos rfl]
      · rw [if_neg hk,if_neg hk]

theorem key_of_atKey {l : List α} {a : α} (h : atKey key k l = some a) : a ∈ l ∧ key a = k :=
  ⟨List.mem_of_find?_eq_some h,by simpa using List.find?_some h⟩

theorem atKey_none {l : List α} : atKey key k l = none ↔ k ∉ l.map key := by
  unfold atKey
  rw [List.find?_eq_none,List.mem_map]
  simp

theorem atKey_putFirst {l : List α} (h : Picks key p k l) (hf : ∀ a, key (f a) = key a) {a : α}
    (ha : key a = k) (k' : κ) :
    atKey key k' (putFirst p f a l) =
      if k' = k then some (((atKey key k l).map f).getD a) else atKey key k' l := by
  unfold putFirst
  rw [any_of_picks h]
  cases hk : atKey key k l with
  | some b =>
    rw [Option.isSome_some,if_pos rfl,atKey_updateFirst h hf,hk]
    rfl
  | none =>
    rw [if_neg (by simp),atKey_append,atKey_singleton,ha]
    by_cases he : k' = k
    · rw [if_pos he,if_pos he.symm,he,hk]
      rfl
    · rw [if_neg he,if_neg (Ne.symm he),Option.or_none]

theorem nodup_putFirst {l : List α} (h : Picks key p k l) (hf : ∀ a, key (f a) = key a) {a : α}
    (ha : key a = k) (hn : (l.map key).Nodup) : ((putFirst p f a l).map key).Nodup := by
  unfold putFirst
  rw [any_of_picks h]
  cases hk : atKey key k l with
  | some b =>
    rw [Option.isSome_some,if_pos rfl,keys_updateFirst hf]
    exact hn
  | none =>
    rw [if_neg (by simp),List.map_append,List.nodup_append]
    refine ⟨hn,by simp,?_⟩
    intro x hx y hy
    simp only [List.map_cons,List.map_nil,List.mem_singleton] at hy
    rintro rfl
    rw [hy,ha] at hx
    exact atKey_none.mp hk hx

theorem mem_putFirst {l : List α} {a b : α} (h : b ∈ putFirst p f a l) :
    b ∈ l ∨ b = a ∨ ∃ c ∈ l, p c = true ∧ b = f c := by
  unfold putFirst at h
  split at h
  · rcases mem_updateFirst h with h | h
    · exact Or.inl h
    · exact Or.inr (Or.inr h)
  · rcases List.mem_append.mp h with h | h
    · exact Or.inl h
    · exact Or.inr (Or.inl (List.mem_singleton.mp h))

end Assoc

section Groups
variable {α β κ : Type} {mk : κ → List β → α} {p : κ → α → Bool} {add : β → α → α}

/-- Add an item to the group of a name, with a new group for the first one. -/
def addItem (mk : κ → List β → α) (p : κ → α → Bool) (add : β → α → α) (k : κ) (l : List α) (x : β) : List α :=
  putFirst (p k) (add x) (mk k [x]) l

theorem foldl_addItem_more (hadd : ∀ k xs x, add x (mk k xs) = mk k (xs ++ [x])) {k : κ} {l : List α}
    (hself : ∀ xs, p k (mk k xs) = true) (hl : l.any (p k) = false) (ys xs : List β) :
    xs.foldl (addItem mk p add k) (l ++ [mk k ys]) = l ++ [mk k (ys ++ xs)] := by
  induction xs generalizing ys with
  | nil => rw [List.append_nil]; rfl
  | cons x xs ih =>
    have hstep : addItem mk p add k (l ++ [mk k ys]) x = l ++ [mk k (ys ++ [x])] := by
      unfold addItem putFirst
      rw [if_pos (by simp [hself]),updateFirst_append hl _ (hself ys),hadd]
    rw [List.foldl_cons,hstep,ih,List.append_assoc]
    rfl

theorem foldl_addItem (hadd : ∀ k xs x, add x (mk k xs) = mk k (xs ++ [x])) {k : κ} {l : List α}
    (hself : ∀ xs, p k (mk k xs) = true) (hl : l.any (p k) = false) (xs : List β) :
    xs.foldl (addItem mk p add k) l = if xs = [] then l else l ++ [mk k xs] := by
  cases xs with
  | nil => rfl
  | cons x xs =>
    have hstep : addItem mk p add k l x = l ++ [mk k [x]] := by
      unfold addItem putFirst
      rw [if_neg (by rw [hl]; exact Bool.false_ne_true)]
    rw [List.foldl_cons,hstep,foldl_addItem_more hadd hself hl,if_neg (List.cons_ne_nil _ _)]
    rfl

variable {ω : Type} {name : ω → κ} {items : ω → List β}

/-- Group after group, those that have items come out as they are. -/
theorem foldl_groups (hadd : ∀ k xs x, add x (mk k xs) = mk k (xs ++ [x])) {os : List ω}
    (hself : ∀ o ∈ os, ∀ xs, p (name o) (mk (name o) xs) = true)
    (hother : os.Pairwise (fun o o' => ∀ xs, p (name o') (mk (name o) xs) = false)) {l : List α}
    (hl : ∀ o ∈ os, l.any (p (name o)) = false) :
    os.foldl (fun l o => (items o).foldl (addItem mk p add (name o)) l) l =
      l ++ (os.filter (fun o => !(items o).isEmpty)).map (fun o => mk (name o) (items o)) := by
  induction os generalizing l with
  | nil => rw [List.filter_nil,List.map_nil,List.append_nil]; rfl
  | cons o os ih =>
    rw [List.pairwise_cons] at hother
    rw [List.foldl_cons,foldl_addItem hadd (hself o List.mem_cons_self) (hl o List.mem_cons_self)]
    have hrest : ∀ o' ∈ os, l.any (p (name o')) = false := fun o' ho' => hl o' (List.mem_cons_of_mem _ ho')
    by_cases hg : items o = []
    · rw [if_pos hg,List.filter_cons_of_neg (by simp [hg])]
      exact ih (fun o' ho' => hself o' (List.mem_cons_of_mem _ ho')) hother.2 hrest
    · rw [if_neg hg,List.filter_cons_of_pos (by simp [hg]),List.map_cons,
        ih (fun o' ho' => hself o' (List.mem_cons_of_mem _ ho')) hother.2 ?_,List.append_assoc]
      · rfl
      · intro o' ho'
        simp [hrest o' ho',hother.1 o' ho']

end Groups

section Changes
variable {α ω κ : Type} [DecidableEq κ]

/-- Change the element found for each item, until one is not found. -/
def changeAll (key : α → κ) (name : ω → κ) (g : ω → α → α) : List ω → List α → List α × Bool
  | [],l => (l,true)
  | o::os,l =>
    if l.any (fun a => key a = name o) then changeAll key name g os (updateFirst (fun a => key a = name o) (g o) l)
    else (l,false)

variable (key : α → κ) (name : ω → κ) (g : ω → α → α)

theorem changeAll_found (hg : ∀ o a, key (g o a) = key a) {os : List ω} {l : List α}
    (hin : ∀ o ∈ os, name o ∈ l.map key) :
    changeAll key name g os l =
      (os.foldl (fun l o => updateFirst (fun a => decide (key a = name o)) (g o) l) l,true) := by
  induction os generalizing l with
  | nil => rfl
  | cons o os ih =>
    have ho : l.any (fun a => key a = name o) = true := by
      obtain ⟨a,ha,he⟩ := List.mem_map.mp (hin o List.mem_cons_self)
      exact List.any_eq_true.mpr ⟨a,ha,decide_eq_true he⟩
    rw [changeAll,if_pos ho,List.foldl_cons]
    apply ih
    intro o' ho'
    rw [keys_updateFirst (hg o)]
    exact hin o' (List.mem_cons_of_mem _ ho')

/-- Where each item finds its element, these are changed and no others. -/
theorem changeAll_spec (hg : ∀ o a, key (g o a) = key a) {os : List ω} {l : List α} (hn : (l.map key).Nodup)
    (hos : (os.map name).Nodup) (hin : ∀ o ∈ os, name o ∈ l.map key) :
    ∃ l', changeAll key name g os l = (l',true) ∧ l'.map key = l.map key ∧
      (∀ o ∈ os, ∀ a ∈ l, key a = name o → g o a ∈ l') ∧ ∀ a ∈ l, (∀ o ∈ os, key a ≠ name o) → a ∈ l' := by
  refine ⟨_,changeAll_found key name g hg hin,?_⟩
  exact mem_foldl_updateFirst (q := fun o a => decide (key a = name o)) hg hn hos
    (fun o _ l' _ a _ => decide_eq_true_iff)

end Changes

/-- The names of some of the elements are some of the names. -/
theorem map_filterMap_sublist {α β κ : Type} {f : α → Option β} {key : α → κ} {name : β → κ}
    (h : ∀ a b, f a = some b → name b = key a) (l : List α) : ((l.filterMap f).map name).Sublist (l.map key) := by
  induction l with
  | nil => exact List.Sublist.slnil
  | cons a l ih =>
    cases hf : f a with
    | none =>
      rw [List.filterMap_cons_none hf]
      exact ih.cons _
    | some b =>
      rw [List.filterMap_cons_some hf,List.map_cons,List.map_cons,h a b hf]
      exact ih.cons_cons _

end CppTango.Lib
