import Mathlib.Data.List.Basic
import Mathlib.Data.List.Induction

namespace CppTango.Lib

/-- A run starts at a position and spans `nbElt` positions downwards from it. -/
structure Span where
  start : Nat
  nbElt : Nat
deriving DecidableEq, Repr

/-- The two parallel sequences of a run-length table. -/
structure RunTable (α : Type) where
  vals : List α
  spans : List Span
deriving DecidableEq, Repr

namespace RunTable

def empty : RunTable α := ⟨[],[]⟩

def rows (t : RunTable α) : List (α × Span) := t.vals.zip t.spans

/-- Open a new run of one element. -/
def push (t : RunTable α) (v : α) (start : Nat) : RunTable α :=
  ⟨t.vals ++ [v],t.spans ++ [⟨start,1⟩]⟩

/-- Lengthen the last run; an empty table has none. -/
def grow (t : RunTable α) : Option (RunTable α) :=
  match t.spans.getLast? with
  | none => none
  | some s => some ⟨t.vals,t.spans.dropLast ++ [⟨s.start,s.nbElt+1⟩]⟩

end RunTable

def Span.Covers (s : Span) (p : Nat) : Prop := p ≤ s.start ∧ s.start < p + s.nbElt

instance (s : Span) (p : Nat) : Decidable (s.Covers p) :=
  inferInstanceAs (Decidable (_ ∧ _))

def Span.Inside (s : Span) (n : Nat) : Prop := s.start < n ∧ s.nbElt ≤ s.start + 1

/-- Write one element in place, with the bounds of the sequence checked. -/
def setAt (l : List β) (p : Nat) (g : β → β) : Option (List β) :=
  if p < l.length then some (l.modify p g) else none

/-- Copy one run back: positions `start`, `start - 1`, and so on. -/
def paint (f : α → β → β) (v : α) (s : Span) (l : List β) : Option (List β) :=
  (List.range s.nbElt).foldlM
    (fun l k => if k ≤ s.start then setAt l (s.start - k) (f v) else none) l

def spread (f : α → β → β) (rows : List (α × Span)) (l : List β) : Option (List β) :=
  rows.foldlM (fun l r => paint f r.1 r.2 l) l

/-- What copying all the runs back does to the element at one position. -/
def shade (f : α → β → β) (rows : List (α × Span)) (p : Nat) (b : β) : β :=
  rows.foldl (fun b r => if r.2.Covers p then f r.1 b else b) b

theorem modify_eq_mapIdx (l : List β) (p : Nat) (g : β → β) :
    l.modify p g = l.mapIdx (fun i b => if i = p then g b else b) := by
  apply List.ext_getElem?
  intro i
  simp only [List.getElem?_modify,List.getElem?_mapIdx]
  by_cases h : p = i
  · simp [h]
  · have h' : i ≠ p := fun e => h e.symm
    cases hl : l[i]? <;> simp [h,h']

theorem mapIdx_self (l : List β) (g : Nat → β → β) (hg : ∀ i b, g i b = b) :
    l.mapIdx g = l := by
  apply List.ext_getElem?
  intro i
  rw [List.getElem?_mapIdx]
  cases l[i]? <;> simp [hg]

theorem covers_grow (start m p : Nat) :
    (Span.mk start (m+1)).Covers p ↔ (Span.mk start m).Covers p ∨ (p ≤ start ∧ p + m = start) := by
  simp only [Span.Covers]
  omega

theorem paint_prefix (f : α → β → β) (v : α) (start : Nat) (l : List β)
    (hs : start < l.length) (m : Nat) (hm : m ≤ start + 1) :
    (List.range m).foldlM
        (fun l k => if k ≤ start then setAt l (start - k) (f v) else none) l =
      some (l.mapIdx (fun p b => if (Span.mk start m).Covers p then f v b else b)) := by
  induction m with
  | zero =>
    rw [mapIdx_self]
    · rfl
    · intro i b
      have hn : ¬ (Span.mk start 0).Covers i := by simp [Span.Covers]
      rw [if_neg hn]
  | succ m ih =>
    have hk : m ≤ start := by omega
    have hl : start - m < l.length := by omega
    rw [List.range_succ,List.foldlM_append,ih (by omega)]
    simp only [Option.bind_eq_bind,Option.bind_some,List.foldlM_cons,List.foldlM_nil,hk,
      if_true,setAt,List.length_mapIdx,hl,Option.pure_def]
    rw [modify_eq_mapIdx,List.mapIdx_mapIdx]
    congr 2
    funext i b
    simp only [Function.comp_apply,covers_grow]
    by_cases hi : i = start - m
    · have h1 : ¬ (Span.mk start m).Covers i := by simp only [Span.Covers]; omega
      have h2 : i ≤ start ∧ i + m = start := by omega
      rw [if_pos hi,if_neg h1,if_pos (Or.inr h2)]
    · have h2 : ¬ (i ≤ start ∧ i + m = start) := by omega
      rw [if_neg hi]
      simp only [h2,or_false]

theorem paint_inside (f : α → β → β) (v : α) (s : Span) (l : List β) (hs : s.Inside l.length) :
    paint f v s l = some (l.mapIdx (fun p b => if s.Covers p then f v b else b)) :=
  paint_prefix f v s.start l hs.1 s.nbElt hs.2

theorem spread_inside (f : α → β → β) (rows : List (α × Span)) (l : List β)
    (hs : ∀ r ∈ rows, r.2.Inside l.length) :
    spread f rows l = some (l.mapIdx (shade f rows)) := by
  induction rows generalizing l with
  | nil =>
    have hid : l.mapIdx (shade f []) = l := by
      apply List.ext_getElem?
      intro i
      rw [List.getElem?_mapIdx]
      cases l[i]? <;> simp [shade]
    simp [spread,hid]
  | cons r rows ih =>
    have hr := hs r List.mem_cons_self
    have hrest : ∀ q ∈ rows, q.2.Inside
        (l.mapIdx (fun p b => if r.2.Covers p then f r.1 b else b)).length := by
      intro q hq
      simpa using hs q (List.mem_cons_of_mem _ hq)
    simp only [spread,List.foldlM_cons,paint_inside f r.1 r.2 l hr,Option.bind_eq_bind,
      Option.bind_some]
    rw [← spread,ih _ hrest,List.mapIdx_mapIdx]
    rfl

theorem shade_append (f : α → β → β) (rows rows' : List (α × Span)) (p : Nat) (b : β) :
    shade f (rows ++ rows') p b = shade f rows' p (shade f rows p b) := by
  simp [shade]

/-- No run reaches past the `i` elements noted so far, so none leaves the `n` positions. -/
def RunTable.Fits (n i : Nat) (t : RunTable α) : Prop :=
  ∀ s ∈ t.spans, s.start < n ∧ n + s.nbElt ≤ s.start + 1 + i

def RunTable.Marks (t : RunTable α) (p : Nat) : Prop := ∃ r ∈ t.rows, r.2.Covers p

def stamp (f : α → β → β) : Option α → β → β
  | none,b => b
  | some v,b => f v b

/-- Values noted so far, newest first: `none` marks an element the table skips. -/
structure Encodes (n : Nat) (vs : List (Option α)) (t : RunTable α) : Prop where
  paired : t.vals.length = t.spans.length
  fits : t.Fits n vs.length
  blank : (∀ v ∈ vs, v = none) → t = .empty
  last : ∀ us v m, vs = us ++ [some v] ++ List.replicate m none →
    ∃ init s, t.rows = init ++ [(v,s)] ∧ s.start + us.length + 2 = n + s.nbElt
  shaded : ∀ {β : Type} (f : α → β → β) p b, p < n →
    shade f t.rows p b = stamp f (vs[n-1-p]?).join b

theorem join_getElem?_snoc (vs : List (Option α)) (x : Option α) (i : Nat) :
    ((vs ++ [x])[i]?).join = if i = vs.length then x else (vs[i]?).join := by
  rcases Nat.lt_trichotomy i vs.length with h | h | h
  · rw [if_neg (by omega),List.getElem?_append_left h]
  · simp [h]
  · rw [if_neg (by omega),List.getElem?_eq_none (by simp; omega),List.getElem?_eq_none (by omega)]

theorem RunTable.rows_push (t : RunTable α) (hp : t.vals.length = t.spans.length)
    (v : α) (start : Nat) : (t.push v start).rows = t.rows ++ [(v,⟨start,1⟩)] := by
  simp [rows,push,List.zip_append hp]

/-- The last row read off the two sequences it is stored in. -/
theorem RunTable.rows_snoc (t : RunTable α) (hp : t.vals.length = t.spans.length)
    (hr : t.rows = init ++ [(v,s)]) :
    t.vals = init.map Prod.fst ++ [v] ∧ t.spans = init.map Prod.snd ++ [s] := by
  have hv : (t.vals.zip t.spans).map Prod.fst = t.vals := List.map_fst_zip (by omega)
  have hs : (t.vals.zip t.spans).map Prod.snd = t.spans := List.map_snd_zip (by omega)
  rw [← rows,hr] at hv hs
  exact ⟨by rw [← hv]; simp,by rw [← hs]; simp⟩

theorem RunTable.grow_rows (t : RunTable α) (hp : t.vals.length = t.spans.length)
    (hr : t.rows = init ++ [(v,s)]) :
    t.grow = some ⟨init.map Prod.fst ++ [v],init.map Prod.snd ++ [⟨s.start,s.nbElt+1⟩]⟩ := by
  obtain ⟨hv,hs⟩ := t.rows_snoc hp hr
  simp [grow,hs,hv]

theorem RunTable.rows_of_maps (init : List (α × Span)) (v : α) (s : Span) :
    (RunTable.mk (init.map Prod.fst ++ [v]) (init.map Prod.snd ++ [s])).rows = init ++ [(v,s)] := by
  simp only [rows]
  rw [List.zip_append (by simp)]
  simp [List.zip_map',List.map_id']

theorem RunTable.Fits.mono (h : RunTable.Fits n i t) (hi : i ≤ j) : RunTable.Fits n j t := by
  intro s hs
  have := h s hs
  exact ⟨this.1,by omega⟩

theorem RunTable.Fits.push {t : RunTable α} (h : t.Fits n i) (hn : i < n) (v : α) :
    (t.push v (n - (i+1))).Fits n (i+1) := by
  intro s hs
  rcases List.mem_append.mp hs with hs | hs
  · exact h.mono (Nat.le_succ i) s hs
  · simp only [List.mem_cons,List.not_mem_nil,or_false] at hs
    subst s
    exact ⟨by dsimp only; omega,by dsimp only; omega⟩

theorem RunTable.Fits.grow (h : RunTable.Fits n i t) (hg : t.grow = some t') :
    RunTable.Fits n (i+1) t' := by
  unfold RunTable.grow at hg
  split at hg
  · cases hg
  · rename_i s hl
    cases hg
    intro q hq
    rcases List.mem_append.mp hq with hq | hq
    · exact h.mono (Nat.le_succ i) q (List.dropLast_subset _ hq)
    · simp only [List.mem_cons,List.not_mem_nil,or_false] at hq
      subst q
      have := h s (List.mem_of_getLast? hl)
      exact ⟨this.1,by dsimp only; omega⟩

theorem RunTable.Fits.inside {t : RunTable α} (h : t.Fits n i) (hi : i ≤ n) :
    ∀ r ∈ t.rows, r.2.Inside n := by
  intro r hr
  have := h r.2 (List.of_mem_zip hr).2
  exact ⟨this.1,by omega⟩

theorem Encodes.nil (n : Nat) : Encodes n ([] : List (Option α)) RunTable.empty where
  paired := rfl
  fits := by intro s hs; simp [RunTable.empty] at hs
  blank := fun _ => rfl
  last := by intro us v m h; simp at h
  shaded := by intro β f p b hp; simp [RunTable.empty,RunTable.rows,shade,stamp]

theorem Encodes.skip (h : Encodes n vs t) : Encodes n (vs ++ [none]) t where
  paired := h.paired
  fits := by simpa using h.fits.mono (Nat.le_succ _)
  blank := fun ha => h.blank (fun v hv => ha v (List.mem_append_left _ hv))
  last := by
    intro us v m he
    cases m with
    | zero => simp at he
    | succ m =>
      rw [List.replicate_succ',← List.append_assoc] at he
      obtain ⟨hv,-⟩ := List.append_inj' he rfl
      exact h.last us v m hv
  shaded := by
    intro β f p b hp
    rw [h.shaded f p b hp,join_getElem?_snoc]
    split
    · rw [List.getElem?_eq_none (by omega)]
      rfl
    · rfl

theorem Encodes.push {t : RunTable α} (h : Encodes n vs t) (hn : vs.length < n) (v : α) :
    Encodes n (vs ++ [some v]) (t.push v (n - (vs.length+1))) where
  paired := by simp [RunTable.push,h.paired]
  fits := by simpa using h.fits.push hn v
  blank := fun ha => by simpa using ha (some v) (by simp)
  last := by
    intro us w m he
    cases m with
    | zero =>
      simp only [List.replicate_zero,List.append_nil] at he
      obtain ⟨hv,hw⟩ := List.append_inj' he rfl
      simp only [List.cons.injEq,Option.some.injEq,and_true] at hw
      subst hv hw
      exact ⟨t.rows,_,t.rows_push h.paired v _,by dsimp only; omega⟩
    | succ m =>
      rw [List.replicate_succ',← List.append_assoc] at he
      obtain ⟨-,hw⟩ := List.append_inj' he rfl
      simp at hw
  shaded := by
    intro β f p b hp
    rw [t.rows_push h.paired,shade_append,h.shaded f p b hp,join_getElem?_snoc]
    simp only [shade,List.foldl_cons,List.foldl_nil]
    by_cases hc : p = n - (vs.length+1)
    · have hcov : (Span.mk (n - (vs.length+1)) 1).Covers p := by simp only [Span.Covers]; omega
      rw [if_pos hcov,if_pos (by omega),List.getElem?_eq_none (by omega)]
      rfl
    · have hcov : ¬ (Span.mk (n - (vs.length+1)) 1).Covers p := by simp only [Span.Covers]; omega
      rw [if_neg hcov,if_neg (by omega)]

theorem Encodes.grow (h : Encodes n (vs ++ [some v]) t) :
    ∃ t', t.grow = some t' ∧ Encodes n (vs ++ [some v] ++ [some v]) t' := by
  obtain ⟨init,s,hr,hs⟩ := h.last vs v 0 (by simp)
  obtain ⟨hvals,hspans⟩ := t.rows_snoc h.paired hr
  have hg := t.grow_rows h.paired hr
  refine ⟨_,hg,by simp,by simpa using h.fits.grow hg,?_,?_,?_⟩
  · intro ha
    simpa using ha (some v) (by simp)
  · intro us w m he
    cases m with
    | zero =>
      simp only [List.replicate_zero,List.append_nil] at he
      obtain ⟨hv,hw⟩ := List.append_inj' he rfl
      simp only [List.cons.injEq,Option.some.injEq,and_true] at hw
      subst hv hw
      refine ⟨init,_,RunTable.rows_of_maps init v _,?_⟩
      simp only [List.length_append,List.length_cons,List.length_nil]
      omega
    | succ m =>
      rw [List.replicate_succ',← List.append_assoc] at he
      obtain ⟨-,hw⟩ := List.append_inj' he rfl
      simp at hw
  · intro β f p b hp
    have hold := h.shaded f p b hp
    rw [hr,shade_append] at hold
    rw [RunTable.rows_of_maps,shade_append]
    simp only [shade,List.foldl_cons,List.foldl_nil,covers_grow] at hold ⊢
    have hlen : (vs ++ [some v]).length = vs.length + 1 := by simp
    rw [join_getElem?_snoc,hlen]
    by_cases hc : p + s.nbElt = s.start
    · -- the position the longer run reaches and the shorter one did not
      have hcov : ¬ s.Covers p := by simp only [Span.Covers]; omega
      rw [if_neg hcov,List.getElem?_eq_none (by omega)] at hold
      rw [if_pos (Or.inr ⟨by omega,hc⟩),if_pos (by omega),hold]
      rfl
    · have hiff : (Span.mk s.start s.nbElt).Covers p ∨ (p ≤ s.start ∧ p + s.nbElt = s.start) ↔
          s.Covers p := by simp [Span.Covers,hc]
      rw [if_neg (show n-1-p ≠ vs.length + 1 by omega)]
      simp only [hiff]
      exact hold

/-- Copying the runs back gives every record the value noted for it, oldest first. -/
theorem Encodes.spread {β : Type} {recs : List ρ} {g : ρ → Option α} {t : RunTable α}
    (h : Encodes recs.length (recs.map g) t) (f : α → β → β) (elt : ρ → β) :
    Lib.spread f t.rows (recs.reverse.map elt) =
      some (recs.reverse.map (fun r => stamp f (g r) (elt r))) := by
  have hin : ∀ r ∈ t.rows, r.2.Inside (recs.reverse.map elt).length := by
    simpa using h.fits.inside (by simp)
  rw [spread_inside f t.rows _ hin]
  congr 1
  apply List.ext_getElem?
  intro p
  simp only [List.getElem?_mapIdx,List.getElem?_map]
  by_cases hp : p < recs.length
  · rw [List.getElem?_reverse hp]
    have hi : recs.length - 1 - p < recs.length := by omega
    rw [List.getElem?_eq_getElem hi]
    simp only [Option.map_some]
    rw [h.shaded f p _ hp,List.getElem?_map,List.getElem?_eq_getElem hi]
    rfl
  · rw [List.getElem?_eq_none (by simp; omega)]
    rfl

/-- Either nothing has been noted or there is a last noted value. -/
theorem all_none_or_last (vs : List (Option α)) :
    (∀ v ∈ vs, v = none) ∨ ∃ us v m, vs = us ++ [some v] ++ List.replicate m none := by
  induction vs using List.reverseRecOn with
  | nil => left; simp
  | append_singleton vs x ih =>
    cases x with
    | some v => exact Or.inr ⟨vs,v,0,by simp⟩
    | none =>
      rcases ih with ha | ⟨us,v,m,rfl⟩
      · left
        intro v hv
        rcases List.mem_append.mp hv with hv | hv
        · exact ha v hv
        · simpa using hv
      · exact Or.inr ⟨us,v,m+1,by rw [List.replicate_succ',← List.append_assoc]⟩

/-- A table in which some run already covers a position it should not. -/
structure Smudged (n i p : Nat) (t : RunTable α) : Prop where
  paired : t.vals.length = t.spans.length
  fits : t.Fits n i
  marks : t.Marks p

theorem Smudged.skip (h : Smudged n i p t) : Smudged n (i+1) p t :=
  ⟨h.paired,h.fits.mono (Nat.le_succ i),h.marks⟩

theorem Smudged.push {t : RunTable α} (h : Smudged n i p t) (hn : i < n) (v : α) :
    Smudged n (i+1) p (t.push v (n - (i+1))) := by
  refine ⟨by simp [RunTable.push,h.paired],h.fits.push hn v,?_⟩
  obtain ⟨r,hr,hc⟩ := h.marks
  exact ⟨r,by rw [t.rows_push h.paired]; exact List.mem_append_left _ hr,hc⟩

/-- Lengthening the last run only adds to what is covered. -/
theorem Smudged.grow (h : Smudged n i p t) :
    ∃ t', t.grow = some t' ∧ Smudged n (i+1) p t' := by
  obtain ⟨r,hr,hc⟩ := h.marks
  obtain ⟨init,⟨v,s⟩,hrows⟩ := List.eq_nil_or_concat t.rows |>.resolve_left (by
    intro he
    simp [he] at hr)
  rw [List.concat_eq_append] at hrows
  have hg := t.grow_rows h.paired hrows
  refine ⟨_,hg,by simp,h.fits.grow hg,?_⟩
  rw [hrows] at hr
  rw [RunTable.Marks,RunTable.rows_of_maps]
  rcases List.mem_append.mp hr with hr | hr
  · exact ⟨r,List.mem_append_left _ hr,hc⟩
  · simp only [List.mem_cons,List.not_mem_nil,or_false] at hr
    subst r
    exact ⟨(v,_),List.mem_append_right _ List.mem_cons_self,(covers_grow s.start s.nbElt p).mpr (Or.inl hc)⟩

/-- Lengthening the last run after skipped elements covers the first of them. -/
theorem Encodes.grow_gap {t : RunTable α} {us : List (Option α)} {v : α}
    (h : Encodes n (us ++ [some v] ++ List.replicate m none) t)
    (hn : us.length + 1 < n) :
    ∃ t', t.grow = some t' ∧ Smudged n (us.length + m + 2) (n - 2 - us.length) t' := by
  obtain ⟨init,s,hr,hs⟩ := h.last us v m rfl
  have hg := t.grow_rows h.paired hr
  have hf := h.fits.grow hg
  have hlen : (us ++ [some v] ++ List.replicate m none).length + 1 = us.length + m + 2 := by
    simp; omega
  rw [hlen] at hf
  refine ⟨_,hg,by simp,hf,?_⟩
  rw [RunTable.Marks,RunTable.rows_of_maps]
  refine ⟨(v,_),List.mem_append_right _ List.mem_cons_self,?_⟩
  simp only [Span.Covers]
  omega

/-- A covered position has been stamped, whatever else was written there. -/
theorem shade_marked (f : α → β → β) (Q : β → Prop) (hq : ∀ v b, Q (f v b))
    (rows : List (α × Span)) (p : Nat) (b : β) (hm : Q b ∨ ∃ r ∈ rows, r.2.Covers p) :
    Q (shade f rows p b) := by
  induction rows generalizing b with
  | nil => simpa [shade] using hm
  | cons r rows ih =>
    simp only [shade,List.foldl_cons]
    apply ih
    by_cases hc : r.2.Covers p
    · left
      rw [if_pos hc]
      exact hq r.1 b
    · rw [if_neg hc]
      rcases hm with hb | ⟨q,hm,hcq⟩
      · exact Or.inl hb
      · rcases List.mem_cons.mp hm with rfl | hm
        · exact absurd hcq hc
        · exact Or.inr ⟨q,hm,hcq⟩

end CppTango.Lib
