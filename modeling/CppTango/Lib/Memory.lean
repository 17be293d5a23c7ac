import Mathlib.Data.List.Nodup
import Mathlib.Logic.Function.Basic

namespace CppTango.Lib

section Slots
variable {β κ σ : Type} [DecidableEq κ] (key : β → κ) (f : β → σ → σ)

/-- Each element of a list changes its own slot. -/
def updSlots (l : List β) (g : κ → σ) : κ → σ :=
  l.foldl (fun g b => Function.update g (key b) (f b (g (key b)))) g

variable {key f}

theorem updSlots_cons (b : β) (l : List β) (g : κ → σ) :
    updSlots key f (b :: l) g = updSlots key f l (Function.update g (key b) (f b (g (key b)))) := rfl

theorem updSlots_id {l : List β} {g : κ → σ} : updSlots key (fun _ x => x) l g = g := by
  induction l generalizing g with
  | nil => rfl
  | cons b l ih => rw [updSlots_cons,Function.update_eq_self,ih]

theorem updSlots_of_not_mem {k : κ} {l : List β} (h : k ∉ l.map key) (g : κ → σ) :
    updSlots key f l g k = g k := by
  induction l generalizing g with
  | nil => rfl
  | cons b l ih =>
    rw [List.map_cons,List.mem_cons,not_or] at h
    rw [updSlots_cons,ih h.2,Function.update_of_ne h.1]

theorem updSlots_of_mem {b : β} {l : List β} (hn : (l.map key).Nodup) (hb : b ∈ l) (g : κ → σ) :
    updSlots key f l g (key b) = f b (g (key b)) := by
  induction l generalizing g with
  | nil => cases hb
  | cons a l ih =>
    rw [List.map_cons,List.nodup_cons] at hn
    rw [updSlots_cons]
    rcases List.mem_cons.mp hb with rfl | hm
    · rw [updSlots_of_not_mem hn.1,Function.update_self]
    · have hne : key b ≠ key a := by
        intro he
        apply hn.1
        rw [← he]
        exact List.mem_map_of_mem hm
      rw [ih hn.2 hm,Function.update_of_ne hne]

/-- One slot after a list: its own elements, in order. -/
theorem updSlots_apply (l : List β) (g : κ → σ) (k : κ) :
    updSlots key f l g k = (l.filter (fun b => key b = k)).foldl (fun x b => f b x) (g k) := by
  induction l generalizing g with
  | nil => rfl
  | cons b l ih =>
    rw [updSlots_cons,ih]
    by_cases h : key b = k
    · subst h
      rw [List.filter_cons_of_pos (by simp),Function.update_self,List.foldl_cons]
    · rw [List.filter_cons_of_neg (by simpa using h),Function.update_of_ne (Ne.symm h)]

/-- What every change of a slot keeps holds of it after all of them. -/
theorem updSlots_inv {P : σ → Prop} {k : κ} {l : List β} (h : ∀ b ∈ l, key b = k → ∀ x, P x → P (f b x))
    {g : κ → σ} (hg : P (g k)) : P (updSlots key f l g k) := by
  have hfold : ∀ (m : List β) (x : σ), (∀ b ∈ m, ∀ y, P y → P (f b y)) → P x →
      P (m.foldl (fun x b => f b x) x) := by
    intro m
    induction m with
    | nil => exact fun x _ hx => hx
    | cons b m ih =>
      intro x hm hx
      exact ih _ (fun c hc => hm c (List.mem_cons_of_mem _ hc)) (hm b List.mem_cons_self x hx)
  rw [updSlots_apply]
  apply hfold _ _ _ hg
  intro b hb y hy
  obtain ⟨hm,hk⟩ := List.mem_filter.mp hb
  exact h b hm (by simpa using hk) y hy

end Slots

section Pick
variable {α β κ : Type} [DecidableEq κ] {key : α → κ} {key' : β → κ} {f : α → List β} {l : List α}

theorem filter_flatMap_of_not_mem (hf : ∀ a, ∀ b ∈ f a, key' b = key a) {k : κ} (hk : k ∉ l.map key) :
    (l.flatMap f).filter (fun b => key' b = k) = [] := by
  rw [List.filter_eq_nil_iff]
  intro b hb he
  obtain ⟨y,hy,hfy⟩ := List.mem_flatMap.mp hb
  have hky : key y = k := (hf y b hfy).symm.trans (by simpa using he)
  exact hk (hky ▸ List.mem_map_of_mem hy)

/-- Of a list with all keys different, what its elements give at one key is what the element
with that key gives. -/
theorem filter_flatMap_of_mem (hf : ∀ a, ∀ b ∈ f a, key' b = key a) (hn : (l.map key).Nodup) {a : α}
    (ha : a ∈ l) : (l.flatMap f).filter (fun b => key' b = key a) = f a := by
  have hself : (f a).filter (fun b => key' b = key a) = f a := by
    rw [List.filter_eq_self]
    intro b hb
    simpa using hf a b hb
  induction l with
  | nil => cases ha
  | cons x l ih =>
    rw [List.map_cons,List.nodup_cons] at hn
    rw [List.flatMap_cons,List.filter_append]
    rcases List.mem_cons.mp ha with rfl | hm
    · rw [hself,filter_flatMap_of_not_mem hf hn.1,List.append_nil]
    · have hne : key x ≠ key a := fun he => hn.1 (he ▸ List.mem_map_of_mem hm)
      have hx : (f x).filter (fun b => key' b = key a) = [] := by
        rw [List.filter_eq_nil_iff]
        intro b hb he
        exact hne ((hf x b hb).symm.trans (by simpa using he))
      rw [hx,ih hn.2 hm,List.nil_append]

end Pick

section Writes
variable {κ β : Type} [DecidableEq κ]

/-- Write to the keys one after the other. -/
def writeAll (ws : List (κ × β)) (f : κ → β) : κ → β := ws.foldl (fun f w => Function.update f w.1 w.2) f

variable {ws vs : List (κ × β)} {f g : κ → β}

theorem writeAll_append (ws vs : List (κ × β)) (f : κ → β) :
    writeAll (ws ++ vs) f = writeAll vs (writeAll ws f) := List.foldl_append

theorem writeAll_of_not_mem {k : κ} (h : k ∉ ws.map Prod.fst) : writeAll ws f k = f k := by
  induction ws generalizing f with
  | nil => rfl
  | cons w ws ih =>
    rw [List.map_cons,List.mem_cons,not_or] at h
    exact (ih h.2).trans (Function.update_of_ne h.1 _ _)

/-- What was at the keys before does not matter. -/
theorem writeAll_congr (h : ∀ k, k ∉ ws.map Prod.fst → f k = g k) : writeAll ws f = writeAll ws g := by
  induction ws generalizing f g with
  | nil => exact funext fun k => h k List.not_mem_nil
  | cons w ws ih =>
    refine ih fun k hk => ?_
    show Function.update f w.1 w.2 k = Function.update g w.1 w.2 k
    by_cases he : k = w.1
    · rw [he,Function.update_self,Function.update_self]
    · rw [Function.update_of_ne he,Function.update_of_ne he]
      exact h k (List.not_mem_cons_of_ne_of_not_mem he hk)

/-- Writes that broke off can be done again from the start. -/
theorem writeAll_again (ws vs : List (κ × β)) (f : κ → β) :
    writeAll (ws ++ vs) (writeAll ws f) = writeAll (ws ++ vs) f :=
  writeAll_congr fun _ hk => writeAll_of_not_mem fun h =>
    hk (by rw [List.map_append]; exact List.mem_append_left _ h)

theorem writeAll_twice (ws : List (κ × β)) (f : κ → β) : writeAll ws (writeAll ws f) = writeAll ws f := by
  simpa using writeAll_again ws [] f

end Writes

/-- Memory as a map from addresses to bytes. -/
abbrev Memory (β : Type) := Nat → β

namespace Memory
variable {β : Type}

/-- The bytes from an address on. -/
def Holds (m : Memory β) (a : Nat) (bs : List β) : Prop :=
  ∀ i (h : i < bs.length), m (a + i) = bs[i]

/-- Memory with bytes written from an address on. -/
def write (m : Memory β) (a : Nat) (bs : List β) : Memory β := fun x =>
  if a ≤ x then (bs[x - a]?).getD (m x) else m x

/-- `memmove`: the source is read whole before the destination is written. -/
def memmove (m : Memory β) (dest src size : Nat) : Memory β := fun x =>
  if dest ≤ x ∧ x < dest + size then m (src + (x - dest)) else m x

variable {m : Memory β} {a dest src size : Nat} {bs xs ys : List β}

theorem holds_write (m : Memory β) (a : Nat) (bs : List β) : (m.write a bs).Holds a bs := by
  intro i hi
  have ha : a + i - a = i := Nat.add_sub_cancel_left a i
  simp [write,ha,hi]

theorem holds_append : m.Holds a (xs ++ ys) ↔ m.Holds a xs ∧ m.Holds (a + xs.length) ys := by
  constructor
  · intro h
    constructor
    · intro i hi
      have hxy : i < (xs ++ ys).length := by
        rw [List.length_append]
        omega
      rw [h i hxy,List.getElem_append_left hi]
    · intro i hi
      have hxy : xs.length + i < (xs ++ ys).length := by
        rw [List.length_append]
        omega
      rw [Nat.add_assoc,h (xs.length + i) hxy,List.getElem_append_right (Nat.le_add_right _ _)]
      simp
  · rintro ⟨hx,hy⟩ i hi
    rw [List.length_append] at hi
    rcases Nat.lt_or_ge i xs.length with hlt | hge
    · rw [hx i hlt,List.getElem_append_left hlt]
    · have hsub : i - xs.length < ys.length := by omega
      have hsum : a + xs.length + (i - xs.length) = a + i := by omega
      rw [List.getElem_append_right hge,← hy _ hsub,hsum]

/-- What the source held the destination holds, however the two overlap. -/
theorem Holds.memmove (h : m.Holds src bs) (hs : bs.length ≤ size) : (m.memmove dest src size).Holds dest bs := by
  intro i hi
  have hin : dest ≤ dest + i ∧ dest + i < dest + size := by omega
  have hsub : dest + i - dest = i := Nat.add_sub_cancel_left dest i
  simp only [Memory.memmove,hin,and_self,if_true,hsub]
  exact h i hi

/-- Writing on behind what has been written. -/
theorem write_append (m : Memory β) (a : Nat) (xs ys : List β) :
    (m.write a xs).write (a + xs.length) ys = m.write a (xs ++ ys) := by
  funext x
  unfold write
  by_cases hx : a + xs.length ≤ x
  · have ha : a ≤ x := by omega
    have hsub : x - a - xs.length = x - (a + xs.length) := by omega
    rw [if_pos hx,if_pos ha,if_pos ha,List.getElem?_append_right (by omega),hsub,
      List.getElem?_eq_none (by omega : xs.length ≤ x - a)]
    rfl
  · rw [if_neg hx]
    by_cases ha : a ≤ x
    · rw [if_pos ha,if_pos ha,List.getElem?_append_left (by omega)]
    · rw [if_neg ha,if_neg ha]

/-- The bytes of a block of memory. -/
def bytes (m : Memory β) (size : Nat) : List β := (List.range size).map m

theorem bytes_write (m : Memory β) (xs : List β) : (m.write 0 xs).bytes xs.length = xs := by
  apply List.ext_getElem
  · simp [bytes]
  · intro i _ hi
    have h := holds_write m 0 xs i hi
    rw [Nat.zero_add] at h
    simpa [bytes] using h

end Memory

end CppTango.Lib
