import Mathlib.Data.List.Basic
import Mathlib.Data.List.Infix

namespace CppTango.Lib

/-- Copy a sequence into a longer one from a given index on, bounds checked. -/
def blit (buf : List α) (ind : Nat) (xs : List α) : Option (List α) :=
  if ind + xs.length ≤ buf.length then
    some (buf.take ind ++ xs ++ buf.drop (ind + xs.length))
  else none

theorem blit_append (pre suf xs : List α) (h : xs.length ≤ suf.length) :
    blit (pre ++ suf) pre.length xs = some (pre ++ xs ++ suf.drop xs.length) := by
  have hl : pre.length + xs.length ≤ (pre ++ suf).length := by simp; omega
  rw [blit,if_pos hl]
  simp

/-- Filling a padded sequence from the front. -/
theorem blit_padded (stk xs : List α) (size : Nat) (c : α) (h : (stk ++ xs).length ≤ size) :
    blit (stk ++ List.replicate (size - stk.length) c) stk.length xs =
      some (stk ++ xs ++ List.replicate (size - (stk ++ xs).length) c) := by
  rw [List.length_append] at h
  rw [blit_append _ _ _ (by rw [List.length_replicate]; omega)]
  simp [Nat.sub_sub]

section Unstack
variable (len : β → Option Nat) (put : List α → β → β)

/-- Hand each element its slice, walking the sequence back from `base`.
An element without a length gets nothing; a slice below index zero is an error. -/
def unstack (buf : List α) : Nat → List β → Option (List β)
  | _,[] => some []
  | base,b::bs =>
    match len b with
    | none => (unstack buf base bs).map (fun rs => b :: rs)
    | some l =>
      if l ≤ base then
        (unstack buf (base - l) bs).map (fun rs => put ((buf.drop (base - l)).take l) b :: rs)
      else none

/-- The sequence whose slices, from the end backwards, are the records' own. -/
def stack (piece : ρ → Option (List α)) : List ρ → List α
  | [] => []
  | r::rs => stack piece rs ++ (piece r).getD []

/-- The element of a record, with the record's own slice in it. -/
def filled (elt : ρ → β) (piece : ρ → Option (List α)) (r : ρ) : β :=
  match piece r with
  | none => elt r
  | some xs => put xs (elt r)

variable {len put} {elt : ρ → β} {piece : ρ → Option (List α)}

theorem take_sub_of_suffix {buf stk xs : List α} {base : Nat} (hb : base ≤ buf.length)
    (h : stk ++ xs <:+ buf.take base) :
    xs.length ≤ base ∧ (buf.drop (base - xs.length)).take xs.length = xs ∧
      stk <:+ buf.take (base - xs.length) := by
  obtain ⟨pre,hp⟩ := h
  have hlen : base = pre.length + stk.length + xs.length := by
    have := congrArg List.length hp
    simp at this
    omega
  have hsub : base - xs.length = (pre ++ stk).length := by simp; omega
  have hbuf : buf = (pre ++ stk) ++ (xs ++ buf.drop base) := by
    calc buf = buf.take base ++ buf.drop base := (List.take_append_drop base buf).symm
      _ = (pre ++ stk) ++ (xs ++ buf.drop base) := by rw [← hp]; simp
  refine ⟨by omega,?_,?_⟩
  · rw [hsub,hbuf,List.drop_left,List.take_left]
  · refine ⟨pre,?_⟩
    rw [hsub]
    conv_rhs => rw [hbuf]
    rw [List.take_left]

/-- Walking back returns every record's own slice when they are stacked in order. -/
theorem unstack_of_suffix {buf : List α} {base : Nat} (hb : base ≤ buf.length) {rs : List ρ}
    (hl : ∀ r ∈ rs, len (elt r) = (piece r).map List.length)
    (h : stack piece rs <:+ buf.take base) :
    unstack len put buf base (rs.map elt) = some (rs.map (filled put elt piece)) := by
  induction rs generalizing base with
  | nil => rfl
  | cons r rs ih =>
    have hr := hl r List.mem_cons_self
    have hrs : ∀ q ∈ rs, len (elt q) = (piece q).map List.length :=
      fun q hq => hl q (List.mem_cons_of_mem _ hq)
    cases hp : piece r with
    | none =>
      have hn : len (elt r) = none := by simp [hr,hp]
      have hs : stack piece rs <:+ buf.take base := by simpa [stack,hp] using h
      simp [unstack,hn,ih hb hrs hs,filled,hp]
    | some xs =>
      have hn : len (elt r) = some xs.length := by simp [hr,hp]
      have hs : stack piece rs ++ xs <:+ buf.take base := by simpa [stack,hp] using h
      obtain ⟨hle,hcut,hrest⟩ := take_sub_of_suffix hb hs
      simp [unstack,hn,hle,ih (by omega) hrs hrest,hcut,filled,hp]

/-- The converse: only the stacked sequence gives every record its own slice. -/
theorem suffix_of_unstack (hinj : ∀ b xs ys, put xs b = put ys b → xs = ys)
    {buf : List α} {base : Nat} (hb : base ≤ buf.length) {rs : List ρ}
    (hl : ∀ r ∈ rs, len (elt r) = (piece r).map List.length)
    (h : unstack len put buf base (rs.map elt) = some (rs.map (filled put elt piece))) :
    stack piece rs <:+ buf.take base := by
  induction rs generalizing base with
  | nil => exact List.nil_suffix
  | cons r rs ih =>
    have hr := hl r List.mem_cons_self
    have hrs : ∀ q ∈ rs, len (elt q) = (piece q).map List.length :=
      fun q hq => hl q (List.mem_cons_of_mem _ hq)
    cases hp : piece r with
    | none =>
      have hn : len (elt r) = none := by simp [hr,hp]
      simp only [List.map_cons,unstack,hn,filled,hp,Option.map_eq_some_iff,List.cons.injEq,
        true_and] at h
      obtain ⟨bs,hu,rfl⟩ := h
      simpa [stack,hp] using ih hb hrs hu
    | some xs =>
      have hn : len (elt r) = some xs.length := by simp [hr,hp]
      simp only [List.map_cons,unstack,hn,filled,hp] at h
      split at h
      · rename_i hle
        simp only [Option.map_eq_some_iff,List.cons.injEq] at h
        obtain ⟨bs,hu,hx,rfl⟩ := h
        have hcut := hinj (elt r) _ _ hx
        obtain ⟨pre,hpre⟩ := ih (by omega) hrs hu
        refine ⟨pre,?_⟩
        simp only [stack,hp,Option.getD_some]
        rw [← List.append_assoc,hpre,← hcut,List.length_take,List.length_drop]
        have hmin : min xs.length (buf.length - (base - xs.length)) = xs.length := by omega
        rw [hmin,← List.take_add]
        congr 1
        omega
      · cases h

/-- Slices leave alone whatever handing one out does not touch. -/
theorem unstack_key (key : β → κ) (hk : ∀ xs b, key (put xs b) = key b)
    {buf : List α} {base : Nat} {bs bs' : List β}
    (h : unstack len put buf base bs = some bs') : bs'.map key = bs.map key := by
  induction bs generalizing base bs' with
  | nil =>
    cases h
    rfl
  | cons b bs ih =>
    simp only [unstack] at h
    split at h
    · obtain ⟨rs,hr,rfl⟩ := Option.map_eq_some_iff.mp h
      simp [ih hr]
    · split at h
      · obtain ⟨rs,hr,rfl⟩ := Option.map_eq_some_iff.mp h
        simp [ih hr,hk]
      · cases h

theorem stack_append (piece : ρ → Option (List α)) (rs qs : List ρ) :
    stack piece (rs ++ qs) = stack piece qs ++ stack piece rs := by
  induction rs with
  | nil => simp [stack]
  | cons r rs ih => simp [stack,ih]

theorem stack_length_reverse (piece : ρ → Option (List α)) (rs : List ρ) :
    (stack piece rs.reverse).length = (stack piece rs).length := by
  induction rs with
  | nil => rfl
  | cons r rs ih => simp [stack_append,stack,ih,Nat.add_comm]

theorem stack_room {piece : ρ → Option (List α)} (done : List ρ) (r : ρ) (rs : List ρ)
    (h : (stack piece (done ++ r :: rs).reverse).length ≤ size) :
    (stack piece (done ++ [r]).reverse).length ≤ size := by
  have hsplit : (done ++ r :: rs).reverse = rs.reverse ++ (done ++ [r]).reverse := by simp
  rw [hsplit,stack_append,List.length_append] at h
  omega

end Unstack

/-- A sequence is its own tail after padding only if there is no padding or nothing
but padding. -/
theorem suffix_padded (xs : List α) (k : Nat) (c : α) :
    xs <:+ xs ++ List.replicate k c ↔ k = 0 ∨ ∀ x ∈ xs, x = c := by
  constructor
  · rintro ⟨pre,hp⟩
    by_cases hk : k = 0
    · exact Or.inl hk
    · right
      have hlen : pre.length = k := by
        have := congrArg List.length hp
        simp at this
        omega
      -- every element equals the one `k` places further on, which ends in the padding
      have hnext : ∀ i, (xs[i]?) = (xs ++ List.replicate k c)[i+k]? := by
        intro i
        rw [← hp,List.getElem?_append_right (by omega)]
        congr 1
        omega
      have hall : ∀ d i, d = xs.length - i → ∀ x, xs[i]? = some x → x = c := by
        intro d
        induction d using Nat.strongRecOn with
        | ind d ih =>
          intro i hd x hx
          have hi : i < xs.length := by
            by_contra hge
            rw [List.getElem?_eq_none (by omega)] at hx
            cases hx
          rw [hnext i] at hx
          by_cases hin : i + k < xs.length
          · rw [List.getElem?_append_left hin] at hx
            exact ih _ (by omega) (i+k) rfl x hx
          · rw [List.getElem?_append_right (by omega)] at hx
            exact List.eq_of_mem_replicate (List.mem_of_getElem? hx)
      intro x hx
      obtain ⟨i,hi⟩ := List.mem_iff_getElem?.mp hx
      exact hall _ i rfl x hi
  · rintro (hk | hall)
    · simp [hk]
    · have hx : xs = List.replicate xs.length c := List.eq_replicate_iff.mpr ⟨rfl,hall⟩
      refine ⟨List.replicate k c,?_⟩
      rw [hx]
      simp [List.replicate_append_replicate,Nat.add_comm]

end CppTango.Lib
