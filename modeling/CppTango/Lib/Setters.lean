import Mathlib.Data.List.Nodup

namespace CppTango.Lib

/-- A step that may fail: what it changed before it failed stays changed, and what it hands out
is lost then. -/
abbrev Setter (σ ω ε : Type) := σ → σ × Except ε (List ω)

variable {ι σ ω ε : Type}

/-- A setter and the cell of the state that is its own. -/
structure CellSetter (ι σ ω ε : Type) where
  cell : ι
  set : Setter σ ω ε

def setAll : List (CellSetter ι σ ω ε) → Setter σ ω ε
  | [],s => (s,.ok [])
  | c::cs,s =>
    match c.set s with
    | (t,.error e) => (t,.error e)
    | (t,.ok out) => ((setAll cs t).1,(setAll cs t).2.map (out ++ ·))

section Cells
variable {same : ι → σ → σ → Prop}

/-- A setter changes no cell but its own. -/
def Keeps (same : ι → σ → σ → Prop) (c : CellSetter ι σ ω ε) : Prop :=
  ∀ i s, i ≠ c.cell → same i (c.set s).1 s

theorem setAll_cons_ok {c : CellSetter ι σ ω ε} {cs : List (CellSetter ι σ ω ε)} {s : σ}
    {out : List ω} (h : (c.set s).2 = .ok out) :
    setAll (c::cs) s =
      ((setAll cs (c.set s).1).1,(setAll cs (c.set s).1).2.map (out ++ ·)) := by
  rw [setAll]
  split
  next he =>
    rw [he] at h
    cases h
  next he =>
    rw [he] at h
    cases h
    rw [he]

theorem setAll_cons_error {c : CellSetter ι σ ω ε} {cs : List (CellSetter ι σ ω ε)} {s : σ}
    {e : ε} (h : (c.set s).2 = .error e) : setAll (c::cs) s = ((c.set s).1,.error e) := by
  rw [setAll]
  split
  next he =>
    rw [he] at h
    cases h
    rw [he]
  next he =>
    rw [he] at h
    cases h

/-- The state a list of setters leaves, whether its first one fails or not. -/
theorem setAll_cons_state (c : CellSetter ι σ ω ε) (cs : List (CellSetter ι σ ω ε)) (s : σ) :
    ((∃ e, (c.set s).2 = .error e) ∧ (setAll (c::cs) s).1 = (c.set s).1) ∨
      ((∃ out, (c.set s).2 = .ok out) ∧
        (setAll (c::cs) s).1 = (setAll cs (c.set s).1).1) := by
  cases h : (c.set s).2 with
  | error e => exact .inl ⟨⟨e,rfl⟩,by rw [setAll_cons_error h]⟩
  | ok out => exact .inr ⟨⟨out,rfl⟩,by rw [setAll_cons_ok h]⟩

theorem setAll_inv {inv : σ → Prop} {cs : List (CellSetter ι σ ω ε)}
    (hc : ∀ c ∈ cs, ∀ s, inv s → inv (c.set s).1) {s : σ} (h : inv s) : inv (setAll cs s).1 := by
  induction cs generalizing s with
  | nil => exact h
  | cons c cs ih =>
    have h1 := hc c List.mem_cons_self s h
    rcases setAll_cons_state c cs s with ⟨-,he⟩ | ⟨-,he⟩
    · rwa [he]
    · rw [he]
      exact ih (fun d hd => hc d (List.mem_cons_of_mem c hd)) h1

/-- What is handed out has been handed out by one of the setters. -/
theorem setAll_from {cs : List (CellSetter ι σ ω ε)} {s : σ} {outs : List ω} (h : (setAll cs s).2 = .ok outs) :
    ∀ w ∈ outs, ∃ c ∈ cs, ∃ u o, (c.set u).2 = .ok o ∧ w ∈ o := by
  induction cs generalizing s outs with
  | nil =>
    obtain rfl : [] = outs := Except.ok.inj h
    simp
  | cons c cs ih =>
    cases hs : (c.set s).2 with
    | error e =>
      rw [setAll_cons_error hs] at h
      cases h
    | ok out =>
      rw [setAll_cons_ok hs] at h
      cases hr : (setAll cs (c.set s).1).2 with
      | error e =>
        rw [hr] at h
        cases h
      | ok rest =>
        rw [hr] at h
        obtain rfl : out ++ rest = outs := Except.ok.inj h
        intro w hw
        rcases List.mem_append.mp hw with hw | hw
        · exact ⟨c,List.mem_cons_self,s,out,hs,hw⟩
        · obtain ⟨d,hd,hrest⟩ := ih hr w hw
          exact ⟨d,List.mem_cons_of_mem _ hd,hrest⟩

/-- What the setters hand out carries names of their cells, in the order of the setters. -/
theorem setAll_names {κ : Type} (name : ω → κ) (names : ι → List κ) {cs : List (CellSetter ι σ ω ε)}
    (hc : ∀ c ∈ cs, ∀ s out, (c.set s).2 = .ok out → (out.map name).Sublist (names c.cell)) {s : σ}
    {outs : List ω} (h : (setAll cs s).2 = .ok outs) :
    (outs.map name).Sublist (cs.flatMap (fun c => names c.cell)) := by
  induction cs generalizing s outs with
  | nil =>
    obtain rfl : [] = outs := Except.ok.inj h
    exact List.nil_sublist _
  | cons c cs ih =>
    cases hs : (c.set s).2 with
    | error e =>
      rw [setAll_cons_error hs] at h
      cases h
    | ok out =>
      rw [setAll_cons_ok hs] at h
      cases hr : (setAll cs (c.set s).1).2 with
      | error e =>
        rw [hr] at h
        cases h
      | ok rest =>
        rw [hr] at h
        obtain rfl : out ++ rest = outs := Except.ok.inj h
        rw [List.map_append,List.flatMap_cons]
        exact (hc c List.mem_cons_self s out hs).append
          (ih (fun d hd => hc d (List.mem_cons_of_mem c hd)) hr)

variable (hsame : ∀ i, Equivalence (same i))
include hsame

theorem setAll_keeps {cs : List (CellSetter ι σ ω ε)} (hk : ∀ c ∈ cs, Keeps same c) {i : ι}
    (hi : i ∉ cs.map CellSetter.cell) (s : σ) : same i (setAll cs s).1 s := by
  have hstep : ∀ c ∈ cs, ∀ t, same i t s → same i (c.set t).1 s := by
    intro c hc t ht
    have hne : i ≠ c.cell := fun he => hi (he ▸ List.mem_map_of_mem hc)
    exact (hsame i).trans (hk c hc i t hne) ht
  exact setAll_inv hstep ((hsame i).refl s)

/-- When all the setters succeed, each cell is what its own setter made of it, and what is handed
out besides comes from the setters of other cells. -/
theorem setAll_cell {cs : List (CellSetter ι σ ω ε)} (hk : ∀ c ∈ cs, Keeps same c)
    (hn : (cs.map CellSetter.cell).Nodup) {s : σ} {outs : List ω}
    (h : (setAll cs s).2 = .ok outs) {c : CellSetter ι σ ω ε} (hc : c ∈ cs) :
    ∃ t out pre post, same c.cell t s ∧ (c.set t).2 = .ok out ∧
      same c.cell (setAll cs s).1 (c.set t).1 ∧ outs = pre ++ out ++ post ∧
      ∀ w ∈ pre ++ post, ∃ d ∈ cs, d.cell ≠ c.cell ∧ ∃ u o, (d.set u).2 = .ok o ∧ w ∈ o := by
  induction cs generalizing s outs with
  | nil => simp at hc
  | cons d cs ih =>
    obtain ⟨hd,hn⟩ := List.nodup_cons.mp hn
    have hks : ∀ c ∈ cs, Keeps same c := fun c hc => hk c (List.mem_cons_of_mem d hc)
    cases hs : (d.set s).2 with
    | error e =>
      rw [setAll_cons_error hs] at h
      cases h
    | ok out =>
      rw [setAll_cons_ok hs] at h ⊢
      cases hr : (setAll cs (d.set s).1).2 with
      | error e =>
        rw [hr] at h
        cases h
      | ok outs' =>
        rw [hr] at h
        obtain rfl : out ++ outs' = outs := Except.ok.inj h
        rcases List.mem_cons.mp hc with rfl | hc
        · refine ⟨s,out,[],outs',(hsame _).refl s,hs,setAll_keeps hsame hks hd _,rfl,fun w hw => ?_⟩
          obtain ⟨e,he,u,o,ho,hwo⟩ := setAll_from hr w hw
          exact ⟨e,List.mem_cons_of_mem _ he,fun heq => hd (heq ▸ List.mem_map_of_mem he),u,o,ho,hwo⟩
        · obtain ⟨t,o,pre,post,ht,hto,hf,rfl,hothers⟩ := ih hks hn hr hc
          have hne : c.cell ≠ d.cell := fun he => hd (he ▸ List.mem_map_of_mem hc)
          refine ⟨t,o,out ++ pre,post,(hsame _).trans ht (hk d List.mem_cons_self _ s hne),hto,hf,?_,fun w hw => ?_⟩
          · simp only [List.append_assoc]
          · rw [List.append_assoc] at hw
            rcases List.mem_append.mp hw with hw | hw
            · exact ⟨d,List.mem_cons_self,hne.symm,s,out,hs,hw⟩
            · obtain ⟨e,he,hec,hrest⟩ := hothers w hw
              exact ⟨e,List.mem_cons_of_mem _ he,hec,hrest⟩

/-- Setters that succeed from what their own cells hold succeed one after the other. -/
theorem setAll_succeeds {cs : List (CellSetter ι σ ω ε)} (hk : ∀ c ∈ cs, Keeps same c)
    (hn : (cs.map CellSetter.cell).Nodup) {s : σ}
    (h : ∀ c ∈ cs, ∀ t, same c.cell t s → ∃ out, (c.set t).2 = .ok out) : ∃ outs, (setAll cs s).2 = .ok outs := by
  induction cs generalizing s with
  | nil => exact ⟨[],rfl⟩
  | cons d cs ih =>
    obtain ⟨hd,hn⟩ := List.nodup_cons.mp hn
    obtain ⟨out,ho⟩ := h d List.mem_cons_self s ((hsame _).refl s)
    have hrest : ∀ c ∈ cs, ∀ t, same c.cell t (d.set s).1 → ∃ out, (c.set t).2 = .ok out := by
      intro c hc t ht
      have hne : c.cell ≠ d.cell := fun he => hd (he ▸ List.mem_map_of_mem hc)
      exact h c (List.mem_cons_of_mem d hc) t ((hsame _).trans ht (hk d List.mem_cons_self _ s hne))
    obtain ⟨outs,hr⟩ := ih (fun c hc => hk c (List.mem_cons_of_mem d hc)) hn hrest
    rw [setAll_cons_ok ho,hr]
    exact ⟨_,rfl⟩

end Cells

section Undo
variable {same : ι → σ → σ → Prop}

/-- A setter of a cell and the one that is to take back what it did. -/
structure Paired (ι σ ω ε : Type) where
  cell : ι
  forth : Setter σ ω ε
  back : Setter σ ω ε

def Paired.first (p : Paired ι σ ω ε) : CellSetter ι σ ω ε := ⟨p.cell,p.forth⟩

def Paired.second (p : Paired ι σ ω ε) : CellSetter ι σ ω ε := ⟨p.cell,p.back⟩

/-- From any state the setter succeeds and gives its cell the value it has in `ref`. -/
def Restores (same : ι → σ → σ → Prop) (ref : σ) (c : CellSetter ι σ ω ε) : Prop :=
  ∀ s, (∃ out, (c.set s).2 = .ok out) ∧ same c.cell (c.set s).1 ref

/-- From any state the setter fails and leaves its cell alone. -/
def Refuses (same : ι → σ → σ → Prop) (c : CellSetter ι σ ω ε) : Prop :=
  ∀ s, (∃ e, (c.set s).2 = .error e) ∧ same c.cell (c.set s).1 s

/-- What the second setter does makes up for the first: it restores the cell, or both never get
further. -/
def Paired.Undoes (same : ι → σ → σ → Prop) (ref : σ) (p : Paired ι σ ω ε) : Prop :=
  Restores same ref p.second ∨ Refuses same p.first ∧ Refuses same p.second

theorem cells_first (ps : List (Paired ι σ ω ε)) :
    (ps.map Paired.first).map CellSetter.cell = ps.map Paired.cell := by
  simp [Paired.first]

theorem cells_second (ps : List (Paired ι σ ω ε)) :
    (ps.map Paired.second).map CellSetter.cell = ps.map Paired.cell := by
  simp [Paired.second]

variable (hsame : ∀ i, Equivalence (same i)) {ref : σ} {ps : List (Paired ι σ ω ε)}
include hsame

theorem back_far (hk : ∀ p ∈ ps, Keeps same p.second) {i : ι} (hi : i ∉ ps.map Paired.cell) (u : σ) :
    same i (setAll (ps.map Paired.second) u).1 u :=
  setAll_keeps hsame (List.forall_mem_map.mpr hk) (by rwa [cells_second]) u

/-- Setters that restore their cells from anywhere succeed one after the other and restore them all. -/
theorem setAll_restores {cs : List (CellSetter ι σ ω ε)} (hk : ∀ c ∈ cs, Keeps same c)
    (hn : (cs.map CellSetter.cell).Nodup) (hr : ∀ c ∈ cs, Restores same ref c) (s : σ) :
    (∃ outs, (setAll cs s).2 = .ok outs) ∧ ∀ c ∈ cs, same c.cell (setAll cs s).1 ref := by
  obtain ⟨outs,ho⟩ := setAll_succeeds hsame hk hn (s := s) (fun c hc t _ => (hr c hc t).1)
  refine ⟨⟨outs,ho⟩,fun c hc => ?_⟩
  obtain ⟨t,_,_,_,_,_,hs,-⟩ := setAll_cell hsame hk hn ho hc
  exact (hsame _).trans hs (hr c hc t).2

/-- Setting the old values again, where they still are. -/
theorem back_same (hk : ∀ p ∈ ps, Keeps same p.second) (hn : (ps.map Paired.cell).Nodup)
    (hu : ∀ p ∈ ps, p.Undoes same ref) {t : σ} (ht : ∀ p ∈ ps, same p.cell t ref) :
    ∀ p ∈ ps, same p.cell (setAll (ps.map Paired.second) t).1 ref := by
  induction ps generalizing t with
  | nil => simp
  | cons p ps ih =>
    obtain ⟨hp,hn⟩ := List.nodup_cons.mp hn
    simp only [List.forall_mem_cons] at hk hu ht
    have hne : ∀ q ∈ ps, q.cell ≠ p.cell := fun q hq he => hp (he ▸ List.mem_map_of_mem hq)
    have hother : ∀ q ∈ ps, same q.cell (p.second.set t).1 ref := fun q hq =>
      (hsame _).trans (hk.1 _ t (hne q hq)) (ht.2 q hq)
    have hfar : ∀ u, same p.cell (setAll (ps.map Paired.second) u).1 u :=
      back_far hsame hk.2 hp
    rw [List.map_cons]
    rcases hu.1 with hr | ⟨-,hr⟩
    · obtain ⟨⟨out,ho⟩,hc⟩ := hr t
      rw [setAll_cons_ok ho]
      exact List.forall_mem_cons.mpr ⟨(hsame _).trans (hfar _) hc,ih hk.2 hn hu.2 hother⟩
    · obtain ⟨⟨e,he⟩,hc⟩ := hr t
      rw [setAll_cons_error he]
      exact List.forall_mem_cons.mpr ⟨(hsame _).trans hc ht.1,hother⟩

theorem back_restores (hf : ∀ p ∈ ps, Keeps same p.first) (hk : ∀ p ∈ ps, Keeps same p.second)
    (hn : (ps.map Paired.cell).Nodup) (hu : ∀ p ∈ ps, p.Undoes same ref) {s t : σ}
    (hs : ∀ p ∈ ps, same p.cell s ref)
    (ht : ∀ p ∈ ps, same p.cell t (setAll (ps.map Paired.first) s).1) :
    ∀ p ∈ ps, same p.cell (setAll (ps.map Paired.second) t).1 ref := by
  induction ps generalizing s t with
  | nil => simp
  | cons p ps ih =>
    obtain ⟨hp,hn'⟩ := List.nodup_cons.mp hn
    have hne : ∀ q ∈ ps, q.cell ≠ p.cell := fun q hq he => hp (he ▸ List.mem_map_of_mem hq)
    simp only [List.forall_mem_cons] at hf hk hs ht
    rw [List.map_cons] at ht
    rcases setAll_cons_state p.first (ps.map Paired.first) s with ⟨-,he⟩ | ⟨⟨out,ho⟩,he⟩
    · -- the first pass ends here: no cell further on has been touched
      rw [he] at ht
      have hrest : ∀ q ∈ ps, same q.cell t ref := fun q hq =>
        (hsame _).trans (ht.2 q hq) ((hsame _).trans (hf.1 _ s (hne q hq)) (hs.2 q hq))
      rcases (List.forall_mem_cons.mp hu).1 with hr | ⟨hr1,hr2⟩
      · obtain ⟨⟨out,ho⟩,hc⟩ := hr t
        rw [List.map_cons,setAll_cons_ok ho]
        refine List.forall_mem_cons.mpr ⟨(hsame _).trans (back_far hsame hk.2 hp _) hc,?_⟩
        refine back_same hsame hk.2 hn' (List.forall_mem_cons.mp hu).2 ?_
        exact fun q hq => (hsame _).trans (hk.1 _ t (hne q hq)) (hrest q hq)
      · have hpt : same p.cell t ref :=
          (hsame _).trans ht.1 ((hsame _).trans (hr1 s).2 hs.1)
        exact back_same hsame (List.forall_mem_cons.mpr hk) hn hu
          (List.forall_mem_cons.mpr ⟨hpt,hrest⟩)
    · rw [he] at ht
      rcases (List.forall_mem_cons.mp hu).1 with hr | ⟨hr1,-⟩
      · obtain ⟨⟨out',ho'⟩,hc⟩ := hr t
        rw [List.map_cons,setAll_cons_ok ho']
        refine List.forall_mem_cons.mpr ⟨(hsame _).trans (back_far hsame hk.2 hp _) hc,?_⟩
        refine ih hf.2 hk.2 hn' (List.forall_mem_cons.mp hu).2
          (fun q hq => (hsame _).trans (hf.1 _ s (hne q hq)) (hs.2 q hq)) ?_
        exact fun q hq => (hsame _).trans (hk.1 _ t (hne q hq)) (ht.2 q hq)
      · obtain ⟨⟨e,hre⟩,-⟩ := hr1 s
        rw [hre] at ho
        cases ho

/-- A list of setters that failed anywhere is taken back, cell by cell. -/
theorem setAll_undone (hf : ∀ p ∈ ps, Keeps same p.first) (hk : ∀ p ∈ ps, Keeps same p.second)
    (hn : (ps.map Paired.cell).Nodup) (hu : ∀ p ∈ ps, p.Undoes same ref) (i : ι) :
    same i (setAll (ps.map Paired.second) (setAll (ps.map Paired.first) ref).1).1 ref := by
  by_cases hi : i ∈ ps.map Paired.cell
  · obtain ⟨p,hp,rfl⟩ := List.mem_map.mp hi
    exact back_restores hsame hf hk hn hu (fun q _ => (hsame _).refl ref)
      (fun q _ => (hsame _).refl _) p hp
  · exact (hsame i).trans (back_far hsame hk hi _)
      (setAll_keeps hsame (List.forall_mem_map.mpr hf) (by rwa [cells_first]) ref)

end Undo

end CppTango.Lib
