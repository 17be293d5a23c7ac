import Mathlib.Data.List.Basic
import Mathlib.Data.List.Infix

namespace CppTango.Lib

/-- Characters before the small letters come from no other one. -/
theorem toLower_eq {c x : Char} (h : c.toLower = x) (hx : x.val.toNat < 97) : c = x := by
  unfold Char.toLower at h
  split at h
  · rename_i hr
    have hv : c.val + ('a'.val - 'A'.val) = x.val := congrArg Char.val h
    have hn := congrArg UInt32.toNat hv
    obtain ⟨h1,h2⟩ := hr
    have h1' : 65 ≤ c.val.toNat := h1
    have h2' : c.val.toNat ≤ 90 := h2
    rw [UInt32.toNat_add] at hn
    have he : ('a'.val - 'A'.val).toNat = 32 := rfl
    omega
  · exact h

theorem toLower_twice (c : Char) : c.toLower.toLower = c.toLower := by
  by_cases hc : c.val ≥ 'A'.val ∧ c.val ≤ 'Z'.val
  · have hv : c.toLower.val = c.val + ('a'.val - 'A'.val) := by
      unfold Char.toLower
      rw [dif_pos hc]
    have hn := congrArg UInt32.toNat hv
    have h1 : 65 ≤ c.val.toNat := hc.1
    have h2 : c.val.toNat ≤ 90 := hc.2
    rw [UInt32.toNat_add] at hn
    have he : ('a'.val - 'A'.val).toNat = 32 := rfl
    have hout : ¬ (c.toLower.val ≥ 'A'.val ∧ c.toLower.val ≤ 'Z'.val) := by
      rintro ⟨-,hz⟩
      have hz' : c.toLower.val.toNat ≤ 90 := hz
      omega
    generalize c.toLower = c' at hout ⊢
    unfold Char.toLower
    rw [dif_neg hout]
  · have hsame : c.toLower = c := by
      unfold Char.toLower
      rw [dif_neg hc]
    rw [hsame,hsame]

section Find
variable {α : Type} [DecidableEq α]

/-- Position of the first occurrence of a pattern. -/
def find (p : List α) : List α → Option Nat
  | [] => if p = [] then some 0 else none
  | a::s => if p <+: a :: s then some 0 else (find p s).map (· + 1)

/-- Position of the first occurrence of an element from a position on. -/
def findFrom (c : α) (pos : Nat) (s : List α) : Option Nat := ((s.drop pos).idxOf? c).map (· + pos)

theorem find_eq_none {p s : List α} : find p s = none ↔ ¬ p <:+: s := by
  induction s with
  | nil => simp [find]
  | cons a s ih =>
    rw [find,List.infix_cons_iff]
    by_cases h : p <+: a :: s
    · simp [h]
    · simp [h,ih]

theorem find_isSome {p s : List α} : (find p s).isSome = true ↔ p <:+: s := by
  rw [← not_iff_not,← find_eq_none]
  simp

theorem find_self (p : List α) : find p p = some 0 := by
  cases p with
  | nil => rfl
  | cons a p => simp [find]

/-- A found pattern fits between its position and the end. -/
theorem find_bound {p s : List α} (h : find p s = some i) : i + p.length ≤ s.length := by
  induction s generalizing i with
  | nil =>
    simp only [find] at h
    split at h
    · rename_i hp
      cases h
      simp [hp]
    · cases h
  | cons a s ih =>
    simp only [find] at h
    split at h
    · rename_i hp
      cases h
      simpa using hp.length_le
    · obtain ⟨j,hj,rfl⟩ := Option.map_eq_some_iff.mp h
      have := ih hj
      rw [List.length_cons]
      omega

section Separated
variable {c : α} {p : List α}

omit [DecidableEq α] in
theorem prefix_append_sep (hc : c ∉ p) (e t : List α) : p <+: e ++ c :: t ↔ p <+: e := by
  constructor
  · intro h
    rcases List.prefix_or_prefix_of_prefix h (List.prefix_append e (c :: t)) with hp | hp
    · exact hp
    · obtain ⟨q,rfl⟩ := hp
      cases q with
      | nil => simp
      | cons b q =>
        rw [List.prefix_append_right_inj,List.cons_prefix_cons] at h
        obtain ⟨rfl,-⟩ := h
        simp at hc
  · intro h
    exact h.trans (List.prefix_append e (c :: t))

/-- A pattern without the separator lies on one side of it. -/
theorem find_append_sep (hp : p ≠ []) (hc : c ∉ p) (e t : List α) :
    find p (e ++ c :: t) =
      if p <:+: e then find p e else (find p t).map (· + (e.length + 1)) := by
  induction e with
  | nil =>
    have hn : ¬ p <+: c :: t := by
      intro h
      have := (prefix_append_sep hc [] t).mp h
      simp [hp] at this
    simp [find,hn,hp]
  | cons a e ih =>
    have hpre := prefix_append_sep hc (a :: e) t
    rw [List.cons_append] at hpre ⊢
    simp only [find,hpre,List.infix_cons_iff,ih]
    by_cases h : p <+: a :: e
    · simp [h]
    · by_cases hi : p <:+: e
      · simp [h,hi]
      · simp [h,hi,Function.comp_def,Nat.add_assoc]

theorem infix_append_sep (hp : p ≠ []) (hc : c ∉ p) (e t : List α) :
    p <:+: e ++ c :: t ↔ p <:+: e ∨ p <:+: t := by
  rw [← find_isSome,find_append_sep hp hc]
  by_cases h : p <:+: e
  · simp [h,find_isSome]
  · simp [h,find_isSome]

theorem infix_intercalate (hp : p ≠ []) (hc : c ∉ p) (es : List (List α)) :
    p <:+: [c].intercalate es ↔ ∃ e ∈ es, p <:+: e := by
  induction es with
  | nil => simp [hp]
  | cons e es ih =>
    cases es with
    | nil => simp
    | cons e' es =>
      rw [List.intercalate_cons_cons,List.append_assoc,List.singleton_append,
        infix_append_sep hp hc,ih]
      simp

end Separated

theorem idxOf?_append_sep {c : α} {e : List α} (hc : c ∉ e) (t : List α) :
    (e ++ c :: t).idxOf? c = some e.length := by
  induction e with
  | nil => simp [List.idxOf?_cons]
  | cons a e ih =>
    obtain ⟨ha,he⟩ := not_or.mp (fun h => hc (List.mem_cons.mpr h))
    rw [List.cons_append,List.idxOf?_cons,ih he]
    simp [Ne.symm ha]

/-- The first separator parts a text. -/
theorem idxOf?_cut {c : α} {s : List α} (h : s.idxOf? c = some i) :
    ∃ e t, c ∉ e ∧ s = e ++ c :: t ∧ i = e.length := by
  induction s generalizing i with
  | nil => cases h
  | cons a s ih =>
    rw [List.idxOf?_cons] at h
    split at h
    · rename_i ha
      have hac : a = c := by simpa using ha
      cases h
      exact ⟨[],s,List.not_mem_nil,by rw [hac]; rfl,rfl⟩
    · rename_i ha
      obtain ⟨j,hj,rfl⟩ := Option.map_eq_some_iff.mp h
      obtain ⟨e,t,hc,rfl,rfl⟩ := ih hj
      refine ⟨a::e,t,?_,rfl,rfl⟩
      rintro (_ | ⟨_,hm⟩)
      · simp at ha
      · exact hc hm

theorem not_mem_of_idxOf? {c : α} {s : List α} (h : s.idxOf? c = none) : c ∉ s :=
  List.idxOf?_eq_none_iff.mp h

/-- A found pattern parts a text. -/
theorem find_cut {p s : List α} (h : find p s = some i) : ∃ e t, s = e ++ p ++ t ∧ i = e.length := by
  induction s generalizing i with
  | nil =>
    simp only [find] at h
    split at h
    · rename_i hp
      cases h
      exact ⟨[],[],by rw [hp]; rfl,rfl⟩
    · cases h
  | cons a s ih =>
    simp only [find] at h
    split at h
    · rename_i hp
      cases h
      obtain ⟨t,ht⟩ := hp
      exact ⟨[],t,ht.symm,rfl⟩
    · obtain ⟨j,hj,rfl⟩ := Option.map_eq_some_iff.mp h
      obtain ⟨e,t,rfl,rfl⟩ := ih hj
      exact ⟨a::e,t,rfl,rfl⟩

/-- The next separator behind a position is the end of the piece the position is in. -/
theorem findFrom_before {c : α} {e : List α} (hc : c ∉ e) (t : List α) (h : pos ≤ e.length) :
    findFrom c pos (e ++ c :: t) = some e.length := by
  have hd : c ∉ e.drop pos := fun hm => hc (List.mem_of_mem_drop hm)
  rw [findFrom,List.drop_append_of_le_length h,idxOf?_append_sep hd,Option.map_some,
    List.length_drop,Nat.sub_add_cancel h]

theorem findFrom_after (c : α) (pos : Nat) (e t : List α) :
    findFrom c (pos + (e.length + 1)) (e ++ c :: t) =
      (findFrom c pos t).map (· + (e.length + 1)) := by
  have hd : (e ++ c :: t).drop (pos + (e.length + 1)) = t.drop pos := by
    have h := @List.drop_length_add_append α (e ++ [c]) t pos
    rwa [List.length_append,List.length_singleton,← List.append_cons,Nat.add_comm] at h
  rw [findFrom,hd,findFrom,Option.map_map]
  congr 1
  funext i
  exact (Nat.add_assoc _ _ _).symm

theorem findFrom_none {c : α} {s : List α} (hc : c ∉ s) (pos : Nat) : findFrom c pos s = none := by
  rw [findFrom,List.idxOf?_eq_none_iff.mpr (fun hm => hc (List.mem_of_mem_drop hm)),Option.map_none]

/-- The pieces of a split are free of the separator. -/
theorem not_mem_of_mem_splitOn {c : α} {s e : List α} (h : e ∈ s.splitOn c) : c ∉ e := by
  induction s generalizing e with
  | nil =>
    rw [List.splitOn_nil,List.mem_singleton] at h
    simp [h]
  | cons a s ih =>
    rw [List.splitOn_cons_eq_if_modifyHead] at h
    split at h
    · rcases List.mem_cons.mp h with rfl | hm
      · exact List.not_mem_nil
      · exact ih hm
    · rename_i ha
      cases hs : s.splitOn c with
      | nil => exact absurd hs (List.splitOn_ne_nil c s)
      | cons x xs =>
        rw [hs] at h ih
        rcases List.mem_cons.mp h with rfl | hm
        · have hx := ih List.mem_cons_self
          simp only [beq_iff_eq] at ha
          simp [hx,Ne.symm ha]
        · exact ih (List.mem_cons_of_mem _ hm)

end Find
end CppTango.Lib
