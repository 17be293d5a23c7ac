import Mathlib.Data.List.Basic
import Mathlib.Data.List.Nodup

namespace CppTango.Lib

section Views
/-- A view of the state that no step of a loop touches. -/
theorem foldl_unchanged {β σ τ : Type} {p : σ → τ} {body : σ → β → σ} {l : List β}
    (hf : ∀ x ∈ l, ∀ s, p (body s x) = p s) (s : σ) : p (l.foldl body s) = p s := by
  induction l generalizing s with
  | nil => rfl
  | cons x l ih =>
    rw [List.foldl_cons,ih (fun y hy => hf y (List.mem_cons_of_mem _ hy)),hf x List.mem_cons_self]

/-- A view of the state that one step of a loop changes and no other touches. -/
theorem foldl_own {β σ τ : Type} {p : σ → τ} {h : τ → τ} {body : σ → β → σ} {l : List β} {y : β}
    (hn : l.Nodup) (hy : y ∈ l) (ho : ∀ s, p (body s y) = h (p s))
    (hf : ∀ x ∈ l, x ≠ y → ∀ s, p (body s x) = p s) (s : σ) : p (l.foldl body s) = h (p s) := by
  induction l generalizing s with
  | nil => cases hy
  | cons x l ih =>
    obtain ⟨hx,hl⟩ := List.nodup_cons.mp hn
    rw [List.foldl_cons]
    rcases List.mem_cons.mp hy with rfl | hm
    · have hrest : ∀ z ∈ l, ∀ s, p (body s z) = p s :=
        fun z hz => hf z (List.mem_cons_of_mem _ hz) (fun he => hx (he ▸ hz))
      rw [foldl_unchanged hrest,ho]
    · have hxy : x ≠ y := fun he => hx (he ▸ hm)
      rw [ih hl hm (fun z hz => hf z (List.mem_cons_of_mem _ hz)),hf x List.mem_cons_self hxy]

section Fallible
variable {β σ τ ε : Type} {p : σ → τ} {body : σ → β → Except ε σ} {l : List β}

theorem foldlM_cons_ok {x : β} {s s' : σ} :
    (x :: l).foldlM body s = .ok s' ↔ ∃ t, body s x = .ok t ∧ l.foldlM body t = .ok s' := by
  rw [List.foldlM_cons]
  cases body s x with
  | error e =>
    constructor
    · intro h
      cases h
    · rintro ⟨t,h,-⟩
      cases h
  | ok t =>
    constructor
    · intro h
      exact ⟨t,rfl,h⟩
    · rintro ⟨t',h,h'⟩
      cases h
      exact h'

theorem foldlM_unchanged (hf : ∀ x ∈ l, ∀ s s', body s x = .ok s' → p s' = p s) {s s' : σ}
    (h : l.foldlM body s = .ok s') : p s' = p s := by
  induction l generalizing s with
  | nil =>
    cases h
    rfl
  | cons x l ih =>
    obtain ⟨t,hx,ht⟩ := foldlM_cons_ok.mp h
    rw [ih (fun y hy => hf y (List.mem_cons_of_mem _ hy)) ht,hf x List.mem_cons_self s t hx]

theorem foldlM_own {h : τ → τ} {y : β} (hn : l.Nodup) (hy : y ∈ l)
    (ho : ∀ s s', body s y = .ok s' → p s' = h (p s))
    (hf : ∀ x ∈ l, x ≠ y → ∀ s s', body s x = .ok s' → p s' = p s) {s s' : σ}
    (hs : l.foldlM body s = .ok s') : p s' = h (p s) := by
  induction l generalizing s with
  | nil => cases hy
  | cons x l ih =>
    obtain ⟨hx,hl⟩ := List.nodup_cons.mp hn
    obtain ⟨t,hxt,ht⟩ := foldlM_cons_ok.mp hs
    rcases List.mem_cons.mp hy with rfl | hm
    · have hrest : ∀ z ∈ l, ∀ s s', body s z = .ok s' → p s' = p s :=
        fun z hz => hf z (List.mem_cons_of_mem _ hz) (fun he => hx (he ▸ hz))
      rw [foldlM_unchanged hrest ht,ho s t hxt]
    · have hxy : x ≠ y := fun he => hx (he ▸ hm)
      rw [ih hl hm (fun z hz => hf z (List.mem_cons_of_mem _ hz)) ht,hf x List.mem_cons_self hxy s t hxt]

/-- A loop returns when each step does from what it finds of its own. -/
theorem foldlM_returns {P : β → σ → Prop} (hn : l.Nodup)
    (hok : ∀ x ∈ l, ∀ s, P x s → ∃ s', body s x = .ok s')
    (hP : ∀ x ∈ l, ∀ y ∈ l, x ≠ y → ∀ s s', body s x = .ok s' → P y s → P y s') {s : σ}
    (hs : ∀ x ∈ l, P x s) : ∃ s', l.foldlM body s = .ok s' := by
  induction l generalizing s with
  | nil => exact ⟨s,rfl⟩
  | cons x l ih =>
    obtain ⟨hx,hl⟩ := List.nodup_cons.mp hn
    obtain ⟨t,ht⟩ := hok x List.mem_cons_self s (hs x List.mem_cons_self)
    have hrest : ∀ y ∈ l, P y t := fun y hy =>
      hP x List.mem_cons_self y (List.mem_cons_of_mem _ hy) (fun he => hx (he ▸ hy)) s t ht
        (hs y (List.mem_cons_of_mem _ hy))
    obtain ⟨s',h'⟩ := ih hl (fun y hy => hok y (List.mem_cons_of_mem _ hy))
      (fun y hy z hz => hP y (List.mem_cons_of_mem _ hy) z (List.mem_cons_of_mem _ hz)) hrest
    exact ⟨s',foldlM_cons_ok.mpr ⟨t,ht,h'⟩⟩

end Fallible

/-- An element keeps its index through a filter exactly when everything before it stays. -/
theorem filter_place {β : Type} {l : List β} (hn : l.Nodup) {q : β → Bool} {i k : Nat} {x : β}
    (hi : l[i]? = some x) (hk : (l.filter q)[k]? = some x) : k = i ↔ ∀ y ∈ l.take i, q y = true := by
  obtain ⟨hlt,hx⟩ := List.getElem?_eq_some_iff.mp hi
  have hq : q x = true := (List.mem_filter.mp (List.mem_of_getElem? hk)).2
  have hsplit : l.filter q = (l.take i).filter q ++ x :: (l.drop (i + 1)).filter q := by
    conv_lhs => rw [← List.take_append_drop i l,List.drop_eq_getElem_cons hlt,hx]
    rw [List.filter_append,List.filter_cons_of_pos hq]
  have hat : (l.filter q)[((l.take i).filter q).length]? = some x := by
    rw [hsplit,List.getElem?_append_right (Nat.le_refl _),Nat.sub_self]
    rfl
  have hk' : k = ((l.take i).filter q).length := by
    obtain ⟨hkl,-⟩ := List.getElem?_eq_some_iff.mp hk
    exact (List.getElem?_inj hkl (hn.filter q)).mp (hk.trans hat.symm)
  have hlen : (l.take i).length = i := List.length_take_of_le (Nat.le_of_lt hlt)
  rw [hk',← List.length_filter_eq_length_iff,hlen]

end Views

section Turns
variable {σ : Type}

/-- A counted loop, which a failing turn breaks off. -/
@[grind =] def turns (step : σ → Option σ) : Nat → σ → Option σ
  | 0,s => some s
  | n+1,s => (step s).bind (turns step n)

variable {step : σ → Option σ}

theorem turns_add (m n : Nat) (s : σ) : turns step (m + n) s = (turns step m s).bind (turns step n) := by
  induction m generalizing s with
  | zero =>
    rw [Nat.zero_add]
    rfl
  | succ m ih =>
    rw [Nat.succ_add,turns,turns,Option.bind_assoc]
    exact congrArg _ (funext ih)

/-- A loop inside a loop. -/
theorem turns_turns (m n : Nat) (s : σ) : turns (turns step n) m s = turns step (m * n) s := by
  induction m generalizing s with
  | zero =>
    rw [Nat.zero_mul]
    rfl
  | succ m ih =>
    rw [Nat.succ_mul,Nat.add_comm (m * n),turns_add n (m * n)]
    exact congrArg (turns step n s).bind (funext ih)

end Turns

section Read
variable {α β : Type}

/-- A turn takes `k` elements from where the last one stopped, and puts down `m`. -/
structure Reads (raw : List α) (k m : Nat) (step : Nat × List β → Option (Nat × List β)) : Prop where
  inside : ∀ src out, src + k ≤ raw.length →
    ∃ more : List β, more.length = m ∧ step (src,out) = some (src + k,out ++ more)
  outside : ∀ src out, raw.length < src + k → step (src,out) = none

variable {raw : List α} {k m : Nat} {step : Nat × List β → Option (Nat × List β)}

theorem turns_inside (h : Reads raw k m step) (n src : Nat) (out : List β) (hn : src + n * k ≤ raw.length) :
    ∃ more : List β, more.length = n * m ∧ turns step n (src,out) = some (src + n * k,out ++ more) := by
  induction n generalizing src out with
  | zero => exact ⟨[],by simp,by simp [turns]⟩
  | succ n ih =>
    rw [Nat.succ_mul] at hn
    obtain ⟨first,hfirst,hstep⟩ := h.inside src out (by omega)
    obtain ⟨rest,hrest,hturns⟩ := ih (src + k) (out ++ first) (by omega)
    refine ⟨first ++ rest,?_,?_⟩
    · rw [List.length_append,hfirst,hrest,Nat.succ_mul,Nat.add_comm]
    · rw [turns,hstep,Option.bind_some,hturns,List.append_assoc,Nat.succ_mul,Nat.add_assoc,Nat.add_comm k]

theorem turns_outside (h : Reads raw k m step) (n src : Nat) (out : List β) (hs : src ≤ raw.length)
    (hn : raw.length < src + n * k) : turns step n (src,out) = none := by
  induction n generalizing src out with
  | zero =>
    rw [Nat.zero_mul] at hn
    omega
  | succ n ih =>
    rw [Nat.succ_mul] at hn
    rcases Nat.lt_or_ge raw.length (src + k) with hlt | hge
    · rw [turns,h.outside src out hlt]
      rfl
    · obtain ⟨first,_,hstep⟩ := h.inside src out hge
      rw [turns,hstep,Option.bind_some]
      exact ih (src + k) _ hge (by omega)

/-- Chunks written one behind the other are read back by a turn each. -/
theorem turns_chunks {γ : Type} {enc : γ → List α} {dec : γ → List β}
    (hstep : ∀ pre c post out, pre ++ enc c ++ post = raw →
      step (pre.length,out) = some ((pre ++ enc c).length,out ++ dec c))
    (cs : List γ) (pre : List α) (out : List β) (hraw : pre ++ cs.flatMap enc = raw) :
    turns step cs.length (pre.length,out) = some (raw.length,out ++ cs.flatMap dec) := by
  induction cs generalizing pre out with
  | nil =>
    rw [List.flatMap_nil,List.append_nil] at hraw ⊢
    rw [hraw]
    rfl
  | cons c cs ih =>
    rw [List.flatMap_cons,← List.append_assoc] at hraw
    rw [List.length_cons,turns,hstep pre c _ out hraw,Option.bind_some,ih (pre ++ enc c) _ hraw,List.flatMap_cons,
      List.append_assoc]

end Read

section Sweep
variable {α : Type} (p : α → Bool)

/-- A loop that erases from the vector it walks and then advances, so that what follows an erased
element is stepped over: the elements kept, and those erased. -/
@[grind =] def sweep : List α → List α × List α
  | [] => ([],[])
  | a :: l =>
    if p a then
      match l with
      | [] => ([],[a])
      | b :: l => (sweep l).map (b :: ·) (a :: ·)
    else (sweep l).map (a :: ·) id

/-- No two neighbours are both to be erased. -/
def Apart (l : List α) : Prop := l.IsChain (fun a b => ¬(p a = true ∧ p b = true))

variable {p} {a : α} {l : List α}

theorem apart_cons (h : p a = false) : Apart p (a :: l) ↔ Apart p l := by
  unfold Apart
  cases l with
  | nil => simp
  | cons b l =>
    rw [List.isChain_cons_cons]
    exact and_iff_right (fun hab => absurd (h.symm.trans hab.1) Bool.false_ne_true)

theorem sweep_erased {b : α} (h : p a = true) : sweep p (a :: b :: l) = (sweep p l).map (b :: ·) (a :: ·) := by
  rw [sweep.eq_def]
  simp [h]

theorem sweep_last (h : p a = true) : sweep p [a] = ([],[a]) := by
  rw [sweep.eq_def]
  simp [h]

theorem sweep_kept (h : p a = false) : sweep p (a :: l) = (sweep p l).map (a :: ·) id := by
  rw [sweep.eq_def]
  simp [h]

theorem sweep_congr {q : α → Bool} {l : List α} (h : ∀ a ∈ l, p a = q a) : sweep p l = sweep q l := by
  fun_induction sweep p l with
  | case1 => rfl
  | case2 a hp =>
    rw [h a List.mem_cons_self] at hp
    exact (sweep_last hp).symm
  | case3 a hp b l ih =>
    rw [h a List.mem_cons_self] at hp
    rw [ih (fun c hc => h c (List.mem_cons_of_mem _ (List.mem_cons_of_mem _ hc))),sweep_erased hp]
  | case4 a l hp ih =>
    rw [h a List.mem_cons_self,Bool.not_eq_true] at hp
    rw [ih (fun c hc => h c (List.mem_cons_of_mem _ hc)),sweep_kept hp]

theorem sublist_sweep (p : α → Bool) (l : List α) : ((sweep p l).1).Sublist l := by
  fun_induction sweep p l with
  | case1 => exact List.Sublist.slnil
  | case2 a _ => exact List.nil_sublist _
  | case3 a _ b l ih => exact (ih.cons_cons b).cons a
  | case4 a l _ ih => exact ih.cons_cons a

theorem mem_sweep (p : α → Bool) (l : List α) (c : α) : c ∈ l ↔ c ∈ (sweep p l).1 ∨ c ∈ (sweep p l).2 := by
  fun_induction sweep p l with
  | case1 => simp
  | case2 a _ => simp
  | case3 a _ b l ih =>
    simp only [List.mem_cons,ih,Prod.map_fst,Prod.map_snd]
    tauto
  | case4 a l _ ih =>
    simp only [List.mem_cons,ih,Prod.map_fst,Prod.map_snd,id]
    tauto

theorem of_mem_erased (p : α → Bool) (l : List α) : ∀ c ∈ (sweep p l).2, p c = true := by
  fun_induction sweep p l with
  | case1 => simp
  | case2 a h => simpa using h
  | case3 a h b l ih => exact List.forall_mem_cons.mpr ⟨h,ih⟩
  | case4 a l _ ih => exact ih

/-- What is to be kept is left just where nothing that was to go has been stepped over. -/
theorem sweep_right_iff (p : α → Bool) (l : List α) : (sweep p l).1 = l.filter (fun a => !p a) ↔ Apart p l := by
  fun_induction sweep p l with
  | case1 => simp [Apart]
  | case2 a h => simp [Apart,h]
  | case3 a h b l ih =>
    rw [Prod.map_fst,List.filter_cons_of_neg (by simp [h])]
    by_cases hb : p b = true
    · refine iff_of_false ?_ ?_
      · intro he
        have hm : b ∈ (b :: l).filter (fun a => !p a) := by
          rw [← he]
          exact List.mem_cons_self
        simp [hb] at hm
      · intro hc
        exact (List.isChain_cons_cons.mp hc).1 ⟨h,hb⟩
    · have htail : Apart p (a :: b :: l) ↔ Apart p (b :: l) :=
        List.isChain_cons_cons.trans (and_iff_right (fun hab => hb hab.2))
      rw [List.filter_cons_of_pos (by simpa using hb),htail,apart_cons (by simpa using hb),List.cons.injEq,ih]
      exact and_iff_right rfl
  | case4 a l h ih =>
    rw [Prod.map_fst,List.filter_cons_of_pos (by simpa using h),apart_cons (by simpa using h),List.cons.injEq,ih]
    exact and_iff_right rfl

/-- Then all that was to go is erased. -/
theorem mem_erased_iff (h : Apart p l) : a ∈ (sweep p l).2 ↔ a ∈ l ∧ p a = true := by
  constructor
  · intro ha
    exact ⟨(mem_sweep p l a).mpr (.inr ha),of_mem_erased p l a ha⟩
  · rintro ⟨ha,hp⟩
    rcases (mem_sweep p l a).mp ha with hk | he
    · rw [(sweep_right_iff p l).mpr h] at hk
      simp [hp] at hk
    · exact he

end Sweep

section Pace

/-- The times at which more than `lo` has gone by since the last one. -/
@[grind =] def fires (lo : Int) : Int → List Int → List Int
  | _,[] => []
  | last,t :: ts => if lo < t - last then t :: fires lo t ts else fires lo last ts

/-- Times that are looked at again and again: each is at most `gap` after the one before. -/
def Watched (gap : Int) (ts : List Int) : Prop := ts.IsChain (fun a b => a ≤ b ∧ b - a ≤ gap)

instance (gap : Int) (ts : List Int) : Decidable (Watched gap ts) := inferInstanceAs (Decidable (ts.IsChain _))

variable {lo gap last now : Int} {ts : List Int}

theorem fires_late {t : Int} (h : lo < t - last) : fires lo last (t :: ts) = t :: fires lo t ts := if_pos h

theorem fires_early {t : Int} (h : ¬ lo < t - last) : fires lo last (t :: ts) = fires lo last ts := if_neg h

/-- What is watched fires in time and never early, and nothing is due in the end. -/
theorem fires_paced (h0 : 0 ≤ lo) (hnow : now - last ≤ lo) (h : Watched gap (now :: ts)) :
    (last :: fires lo last ts).IsChain (fun a b => lo < b - a ∧ b - a ≤ lo + gap) ∧
      (now :: ts).getLast (List.cons_ne_nil _ _) -
        (last :: fires lo last ts).getLast (List.cons_ne_nil _ _) ≤ lo := by
  induction ts generalizing last now with
  | nil => exact ⟨.singleton _,hnow⟩
  | cons t ts ih =>
    obtain ⟨⟨hle,hgap⟩,h⟩ := List.isChain_cons_cons.mp h
    by_cases hf : lo < t - last
    · have hnext : t - t ≤ lo := by omega
      obtain ⟨hchain,hlast⟩ := ih hnext h
      rw [fires_late hf]
      refine ⟨List.isChain_cons_cons.mpr ⟨⟨hf,by omega⟩,hchain⟩,?_⟩
      rw [List.getLast_cons (List.cons_ne_nil _ _),List.getLast_cons (List.cons_ne_nil _ _)]
      exact hlast
    · obtain ⟨hchain,hlast⟩ := ih (Int.not_lt.mp hf) h
      rw [fires_early hf,List.getLast_cons (List.cons_ne_nil _ _)]
      exact ⟨hchain,hlast⟩

/-- Wherever it starts from. -/
theorem fires_watched (h0 : 0 ≤ lo) (h : Watched gap ts) :
    (fires lo last ts).IsChain (fun a b => lo < b - a ∧ b - a ≤ lo + gap) ∧
      ∀ f ∈ (fires lo last ts).getLast?, ∀ t ∈ ts.getLast?, t - f ≤ lo := by
  induction ts generalizing last with
  | nil => exact ⟨.nil,fun f hf => by cases hf⟩
  | cons t ts ih =>
    by_cases hf : lo < t - last
    · have hnow : t - t ≤ lo := by omega
      obtain ⟨hchain,hlast⟩ := fires_paced h0 hnow h
      rw [fires_late hf]
      refine ⟨hchain,fun f hf t' ht' => ?_⟩
      rw [List.getLast?_eq_getLast_of_ne_nil (List.cons_ne_nil _ _),Option.mem_some_iff] at hf ht'
      rw [← hf,← ht']
      exact hlast
    · obtain ⟨hchain,hlast⟩ := ih (List.isChain_of_isChain_cons h)
      rw [fires_early hf]
      refine ⟨hchain,fun f hf t' ht' => ?_⟩
      cases ts with
      | nil => cases hf
      | cons t₁ ts => exact hlast f hf t' (by rwa [List.getLast?_cons_cons] at ht')

/-- What is never looked at too early fires every time. -/
theorem fires_each (h : (last :: ts).IsChain (fun a b => lo < b - a)) : fires lo last ts = ts := by
  induction ts generalizing last with
  | nil => rfl
  | cons t ts ih =>
    obtain ⟨hf,h⟩ := List.isChain_cons_cons.mp h
    rw [fires_late hf,ih h]

end Pace

end CppTango.Lib
