import CppTango.Lib.Steps
import Mathlib.Logic.Function.Basic

namespace CppTango.Device.ReadersWriters
open CppTango.Lib

inductive Side
  | reader | writer
deriving DecidableEq, Repr

/-- A thread in `cond.wait`, with the `omni_thread` it had on the way in. -/
structure Waiting where
  side : Side
  th : Option Nat
deriving DecidableEq, Repr

/-- A lock and the threads about it. A thread has the identifier of its `omni_thread`, or none; the holds stand in the
order in which they were taken, the newest first. -/
structure State (T : Type) where
  n : Int
  writerId : Nat
  autoSelf : Option Nat
  self : T → Option Nat
  nextId : Nat
  waiting : T → Option Waiting
  inside : List (T × Side)

/-- Identifiers are counted from 0, and none is given twice. -/
structure Told {T : Type} (ids : T → Option Nat) (nextId : Nat) : Prop where
  distinct : ∀ t u i, ids t = some i → ids u = some i → t = u
  counted : ∀ t i, ids t = some i → i < nextId

/-- The threads in front of all calls. -/
structure Threads (T : Type) where
  self : T → Option Nat
  nextId : Nat
  told : Told self nextId

def Threads.start {T : Type} (th : Threads T) : State T := ⟨0,0,none,th.self,th.nextId,fun _ => none,[]⟩

/-- The identifier that is compared; 0 stands for a thread without one, too. -/
def threadId (th : Option Nat) : Nat := th.getD 0

section Calls
variable {T : Type} [DecidableEq T] (t : T) (s : State T)

def State.taken (side : Side) : State T :=
  { s with waiting := Function.update s.waiting t none, inside := (t,side) :: s.inside }

def State.waits (side : Side) (th : Option Nat) : State T :=
  { s with waiting := Function.update s.waiting t (some ⟨side,th⟩) }

/-- The thread waits, or comes in. -/
def readerLoop (th : Option Nat) : State T :=
  if s.n < 0 then s.waits t .reader th else { s with n := s.n + 1 }.taken t .reader

/-- A dummy is made for a thread without an `omni_thread`. -/
def ensureSelf (th : Option Nat) : State T :=
  if th = none then
    { s with autoSelf := some s.nextId, self := Function.update s.self t (some s.nextId), nextId := s.nextId + 1 }
  else s

def writerLoop (th : Option Nat) : State T :=
  if s.n ≠ 0 then s.waits t .writer th
  else
    let s := ensureSelf t { s with n := s.n - 1 } th
    { s with writerId := threadId (s.self t) }.taken t .writer

/-- What both calls begin with: the writer comes in again, as it seems. -/
def again (side : Side) (loop : T → State T → Option Nat → State T) : State T :=
  let th := s.self t
  if s.n < 0 ∧ s.writerId = threadId th then { s with n := s.n - 1 }.taken t side else loop t s th

def readerIn : State T := again t s .reader readerLoop

def writerIn : State T := again t s .writer writerLoop

/-- Back from `cond.wait`, for whatever reason. -/
def wake : State T :=
  match s.waiting t with
  | none => s
  | some ⟨.reader,th⟩ => readerLoop t s th
  | some ⟨.writer,th⟩ => writerLoop t s th

/-- The newest hold of the thread ends. -/
def State.left : State T := { s with inside := s.inside.eraseP (fun h => h.1 = t) }

def readerOut : State T := (if s.n < 0 then { s with n := s.n + 1 } else { s with n := s.n - 1 }).left t

/-- The dummy goes with its `ensure_self`, in the thread it was made for. -/
def deleteSelf : State T :=
  if s.autoSelf ≠ none ∧ s.autoSelf = s.self t then
    { s with autoSelf := none, self := Function.update s.self t none }
  else { s with autoSelf := none }

def writerOut : State T :=
  let s := { s with n := s.n + 1 }
  (if s.n = 0 then deleteSelf t s else s).left t

end Calls

inductive Act (T : Type)
  | readerIn (t : T)
  | writerIn (t : T)
  | wake (t : T)
  | readerOut (t : T)
  | writerOut (t : T)

section Exclusion
variable {T : Type} {s : State T} {w : T}

/-- No writer and `n` readers, or one thread that has all holds, `-n` of them, and is the writer. -/
def Excludes (s : State T) : Prop :=
  ((∀ h ∈ s.inside, h.2 = .reader) ∧ s.n = s.inside.length) ∨
    ∃ w, (w,.writer) ∈ s.inside ∧ (∀ h ∈ s.inside, h.1 = w) ∧ -s.n = s.inside.length

/-- The writer has the first hold and all others, and is known by its identifier. -/
structure Written (s : State T) (w : T) : Prop where
  first : ∃ rest, s.inside = rest ++ [(w,.writer)]
  all : ∀ h ∈ s.inside, h.1 = w
  count : -s.n = s.inside.length
  known : s.self w = some s.writerId

structure Inv (s : State T) : Prop where
  holds : ((∀ h ∈ s.inside, h.2 = .reader) ∧ s.n = s.inside.length) ∨ ∃ w, Written s w
  told : Told s.self s.nextId
  waits : ∀ t w, s.waiting t = some w → w.th = s.self t

theorem Written.mem (h : Written s w) : (w,.writer) ∈ s.inside := by
  obtain ⟨rest,hr⟩ := h.first
  rw [hr]
  exact List.mem_append_right rest List.mem_cons_self

theorem Written.neg (h : Written s w) : s.n < 0 := by
  have hlen := List.length_pos_of_mem h.mem
  have hc := h.count
  omega

theorem Inv.excludes (h : Inv s) : Excludes s :=
  h.holds.imp id (fun ⟨w,hw⟩ => ⟨w,hw.mem,hw.all,hw.count⟩)

theorem Inv.readers (h : Inv s) (hn : ¬ s.n < 0) : (∀ h ∈ s.inside, h.2 = .reader) ∧ s.n = s.inside.length :=
  h.holds.resolve_right (fun ⟨_,hw⟩ => hn hw.neg)

theorem Inv.written (h : Inv s) (hn : s.n < 0) : ∃ w, Written s w :=
  h.holds.resolve_left (fun ⟨_,hc⟩ => by omega)

theorem start_inv (th : Threads T) : Inv th.start where
  holds := .inl ⟨fun h hm => absurd hm List.not_mem_nil,rfl⟩
  told := th.told
  waits t w h := by cases h

/-- The writer releases a hold that is not its first one. -/
theorem Written.release {rest : List (T × Side)} (hw : Written s w) {g : T × Side} (hi : s.inside = g :: rest)
    (hrest : rest ≠ []) : Written { s with n := s.n + 1, inside := rest } w where
  first := by
    obtain ⟨front,hfront⟩ := hw.first
    rw [hi] at hfront
    cases front with
    | nil =>
      rw [List.nil_append,List.cons.injEq] at hfront
      exact absurd hfront.2 hrest
    | cons f front =>
      rw [List.cons_append,List.cons.injEq] at hfront
      exact ⟨front,hfront.2⟩
  all k hk := hw.all k (by rw [hi]; exact List.mem_cons_of_mem g hk)
  count := by
    have hc := hw.count
    rw [hi,List.length_cons] at hc
    dsimp only
    omega
  known := hw.known

theorem Written.rest_nil {rest : List (T × Side)} (hw : Written s w) {side : Side} (hi : s.inside = (w,side) :: rest)
    (hn : rest = []) : side = .writer := by
  obtain ⟨front,hfront⟩ := hw.first
  rw [hi,hn] at hfront
  cases front with
  | nil => exact (Prod.ext_iff.mp (List.cons.inj hfront).1).2
  | cons f front => simp at hfront

end Exclusion

section Runs
variable {T : Type} [DecidableEq T]

def step (s : State T) : Act T → State T
  | .readerIn t => readerIn t s
  | .writerIn t => writerIn t s
  | .wake t => wake t s
  | .readerOut t => readerOut t s
  | .writerOut t => writerOut t s

/-- The side a thread took last and has not released. -/
def newest (s : State T) (t : T) : Option Side := (s.inside.find? (fun h => h.1 = t)).map Prod.snd

/-- A thread in `cond.wait` makes no other call, and what a thread releases is what it took last. -/
def Nested (s : State T) : Act T → Prop
  | .readerIn t => s.waiting t = none
  | .writerIn t => s.waiting t = none
  | .wake _ => True
  | .readerOut t => s.waiting t = none ∧ newest s t = some .reader
  | .writerOut t => s.waiting t = none ∧ newest s t = some .writer

/-- A thread without an `omni_thread` does not come while the thread with identifier 0 is inside as writer. -/
def Clear (s : State T) : Act T → Prop
  | .readerIn t => ¬ (s.self t = none ∧ s.n < 0 ∧ s.writerId = 0)
  | .writerIn t => ¬ (s.self t = none ∧ s.n < 0 ∧ s.writerId = 0)
  | _ => True

structure Run (T : Type) [DecidableEq T] where
  threads : Threads T
  acts : List (Act T)
  nested : Along step Nested threads.start acts

section Steps
variable {s : State T} {t w : T}

theorem waits_update {waiting : T → Option Waiting} {self : T → Option Nat} {v : Option Waiting}
    (h : ∀ t w, waiting t = some w → w.th = self t) (hv : ∀ w, v = some w → w.th = self t) :
    ∀ u w, Function.update waiting t v u = some w → w.th = self u := by
  intro u w hu
  by_cases hut : u = t
  · rw [hut,Function.update_self] at hu
    rw [hut]
    exact hv w hu
  · rw [Function.update_of_ne hut] at hu
    exact h u w hu

theorem Inv.waiting (h : Inv s) (side : Side) : Inv (s.waits t side (s.self t)) where
  holds := h.holds.imp id (fun ⟨w,hw⟩ => ⟨w,hw.first,hw.all,hw.count,hw.known⟩)
  told := h.told
  waits := waits_update h.waits (fun w hw => by cases hw; rfl)

/-- The writer comes in again, on either side. -/
theorem Inv.again (h : Inv s) (hn : s.n < 0) (hid : s.self t = some s.writerId) (side : Side) :
    Inv ({ s with n := s.n - 1 }.taken t side) := by
  obtain ⟨w,hw⟩ := h.written hn
  have htw : t = w := h.told.distinct t w _ hid hw.known
  obtain ⟨rest,hr⟩ := hw.first
  refine ⟨.inr ⟨w,⟨(t,side) :: rest,?_⟩,?_,?_,hw.known⟩,h.told,waits_update h.waits (by simp)⟩
  · change (t,side) :: s.inside = _
    rw [hr]
    rfl
  · intro g hg
    rcases List.mem_cons.mp hg with rfl | hm
    · exact htw
    · exact hw.all g hm
  · have hc := hw.count
    change -(s.n - 1) = ((s.inside.length + 1 : Nat) : Int)
    omega

theorem Inv.readerLoop (h : Inv s) : Inv (readerLoop t s (s.self t)) := by
  unfold ReadersWriters.readerLoop
  split
  · exact h.waiting .reader
  · rename_i hn
    obtain ⟨hr,hc⟩ := h.readers hn
    refine ⟨.inl ⟨?_,?_⟩,h.told,waits_update h.waits (by simp)⟩
    · intro g hg
      rcases List.mem_cons.mp hg with rfl | hm
      · rfl
      · exact hr g hm
    · change s.n + 1 = ((s.inside.length + 1 : Nat) : Int)
      omega

/-- The threads are still told apart when one gets the next identifier. -/
theorem Told.dummy {ids : T → Option Nat} {k : Nat} (h : Told ids k) :
    Told (Function.update ids t (some k)) (k + 1) := by
  have hnew : ∀ u i, Function.update ids t (some k) u = some i → (u = t ∧ i = k) ∨ ids u = some i := by
    intro u i hu
    by_cases hut : u = t
    · rw [hut,Function.update_self] at hu
      exact .inl ⟨hut,(Option.some.inj hu).symm⟩
    · rw [Function.update_of_ne hut] at hu
      exact .inr hu
  refine ⟨?_,?_⟩
  · intro u v i hu hv
    rcases hnew u i hu with ⟨rfl,hi⟩ | hu' <;> rcases hnew v i hv with ⟨rfl,hj⟩ | hv'
    · rfl
    · exact absurd (h.counted v i hv') (by omega)
    · exact absurd (h.counted u i hu') (by omega)
    · exact h.distinct u v i hu' hv'
  · intro u i hu
    rcases hnew u i hu with ⟨-,hi⟩ | hu'
    · omega
    · exact Nat.lt_succ_of_lt (h.counted u i hu')

theorem Told.gone {ids : T → Option Nat} {k : Nat} (h : Told ids k) : Told (Function.update ids t none) k := by
  have hold : ∀ u i, Function.update ids t none u = some i → ids u = some i := by
    intro u i hu
    by_cases hut : u = t
    · rw [hut,Function.update_self] at hu
      cases hu
    · rwa [Function.update_of_ne hut] at hu
  exact ⟨fun u v i hu hv => h.distinct u v i (hold u i hu) (hold v i hv),fun u i hu => h.counted u i (hold u i hu)⟩

/-- What a thread has after `ensureSelf`, and what the others have. -/
theorem ensureSelf_spec (h : Told s.self s.nextId) :
    Told (ensureSelf t s (s.self t)).self (ensureSelf t s (s.self t)).nextId ∧
    (ensureSelf t s (s.self t)).self t = some (threadId ((ensureSelf t s (s.self t)).self t)) ∧
    (∀ u, u ≠ t → (ensureSelf t s (s.self t)).self u = s.self u) ∧
    (ensureSelf t s (s.self t)).waiting = s.waiting ∧ (ensureSelf t s (s.self t)).inside = s.inside ∧
    (ensureSelf t s (s.self t)).n = s.n := by
  unfold ensureSelf
  split
  · refine ⟨h.dummy,?_,fun u hu => Function.update_of_ne hu ..,rfl,rfl,rfl⟩
    dsimp only
    rw [Function.update_self]
    rfl
  · rename_i hsome
    obtain ⟨i,hi⟩ := Option.ne_none_iff_exists'.mp hsome
    refine ⟨h,?_,fun _ _ => rfl,rfl,rfl,rfl⟩
    rw [hi]
    rfl

/-- With nobody inside, the writer comes in under its own identifier. -/
theorem Inv.writerLoop (h : Inv s) : Inv (writerLoop t s (s.self t)) := by
  unfold ReadersWriters.writerLoop
  split
  · exact h.waiting .writer
  · rename_i hn
    obtain ⟨-,hc⟩ := h.readers (by omega)
    have hnil : s.inside = [] := List.eq_nil_of_length_eq_zero (by omega)
    obtain ⟨htold,hid,hothers,hwait,hin,hnum⟩ := ensureSelf_spec (s := { s with n := s.n - 1 }) (t := t) h.told
    generalize ensureSelf t { s with n := s.n - 1 } (s.self t) = e at *
    have hinside : e.inside = [] := hin.trans hnil
    have hone : e.n = -1 := by
      rw [hnum]
      dsimp only
      omega
    refine ⟨.inr ⟨t,⟨[],?_⟩,?_,?_,hid⟩,htold,?_⟩
    · change (t,Side.writer) :: e.inside = _
      rw [hinside]
      rfl
    · intro g hg
      change g ∈ (t,Side.writer) :: e.inside at hg
      rw [hinside,List.mem_singleton] at hg
      rw [hg]
    · change -e.n = (((t,Side.writer) :: e.inside).length : Int)
      rw [hone,hinside]
      rfl
    · intro u w hu
      change Function.update e.waiting t none u = some w at hu
      change w.th = e.self u
      by_cases hut : u = t
      · rw [hut,Function.update_self] at hu
        cases hu
      · rw [Function.update_of_ne hut,hwait] at hu
        rw [hothers u hut]
        exact h.waits u w hu

theorem Inv.enter (h : Inv s) (side : Side) {loop : T → State T → Option Nat → State T}
    (hclear : ¬ (s.self t = none ∧ s.n < 0 ∧ s.writerId = 0)) (hloop : Inv (loop t s (s.self t))) :
    Inv (ReadersWriters.again t s side loop) := by
  unfold ReadersWriters.again
  dsimp only
  split
  · rename_i hc
    obtain ⟨hn,hid⟩ := hc
    refine h.again hn ?_ side
    cases hs : s.self t with
    | none =>
      rw [hs] at hid
      exact absurd ⟨hs,hn,hid⟩ hclear
    | some i =>
      rw [hs] at hid
      rw [hid]
      rfl
  · exact hloop

theorem Inv.wake (h : Inv s) : Inv (wake t s) := by
  unfold ReadersWriters.wake
  cases hw : s.waiting t with
  | none => exact h
  | some w =>
    obtain ⟨side,th⟩ := w
    have hth : th = s.self t := h.waits t _ hw
    subst hth
    cases side with
    | reader => exact h.readerLoop
    | writer => exact h.writerLoop

theorem found_of_newest {side : Side} (h : newest s t = some side) :
    s.inside.find? (fun g => g.1 = t) = some (t,side) := by
  obtain ⟨g,hg,hside⟩ := Option.map_eq_some_iff.mp h
  have ht : g.1 = t := by simpa using List.find?_some hg
  rw [hg,← ht,← hside]

/-- What the writer releases is the newest of all holds. -/
theorem Written.newest {side : Side} (hw : Written s w) (h : newest s t = some side) :
    t = w ∧ ∃ rest, s.inside = (w,side) :: rest ∧ s.inside.eraseP (fun g => g.1 = t) = rest := by
  have hf := found_of_newest h
  have htw : t = w := hw.all _ (List.mem_of_find?_eq_some hf)
  subst htw
  cases hi : s.inside with
  | nil =>
    rw [hi] at hf
    cases hf
  | cons g rest =>
    have hg : g.1 = t := hw.all g (by rw [hi]; exact List.mem_cons_self)
    rw [hi,List.find?_cons_of_pos (by simpa using hg)] at hf
    have hgt : g = (t,side) := Option.some.inj hf
    refine ⟨rfl,rest,by rw [hgt],?_⟩
    rw [List.eraseP_cons_of_pos (by simpa using hg)]

theorem Inv.readerOut (h : Inv s) (hnew : newest s t = some .reader) : Inv (readerOut t s) := by
  unfold ReadersWriters.readerOut State.left
  by_cases hn : s.n < 0
  · obtain ⟨w,hw⟩ := h.written hn
    obtain ⟨-,rest,hi,he⟩ := hw.newest hnew
    have hrest : rest ≠ [] := fun hnil => by cases hw.rest_nil hi hnil
    rw [if_pos hn]
    refine ⟨.inr ⟨w,?_⟩,h.told,h.waits⟩
    dsimp only
    rw [he]
    exact hw.release hi hrest
  · obtain ⟨hr,hc⟩ := h.readers hn
    have hmem := List.mem_of_find?_eq_some (found_of_newest hnew)
    have hlen := List.length_eraseP_of_mem hmem (p := fun g => decide (g.1 = t)) (by simp)
    have hpos := List.length_pos_of_mem hmem
    rw [if_neg hn]
    refine ⟨.inl ⟨fun g hg => hr g (List.mem_of_mem_eraseP hg),?_⟩,h.told,h.waits⟩
    dsimp only
    rw [hlen]
    omega

/-- The dummy goes when its thread waits for nothing. -/
theorem Inv.deleteSelf (h : Inv s) (hnil : s.inside = []) (hwait : s.waiting t = none) : Inv (deleteSelf t s) := by
  have hn : s.n = 0 := by
    rcases h.holds with ⟨-,hc⟩ | ⟨w,hw⟩
    · rw [hc,hnil]
      rfl
    · have hm := hw.mem
      rw [hnil] at hm
      cases hm
  have hholds : (∀ g ∈ s.inside, g.2 = Side.reader) ∧ s.n = s.inside.length := h.readers (by omega)
  unfold ReadersWriters.deleteSelf
  split
  · refine ⟨.inl hholds,h.told.gone,?_⟩
    intro u w hu
    have hut : u ≠ t := by
      rintro rfl
      rw [hwait] at hu
      cases hu
    dsimp only
    rw [Function.update_of_ne hut]
    exact h.waits u w hu
  · exact ⟨.inl hholds,h.told,h.waits⟩

theorem deleteSelf_left : (ReadersWriters.deleteSelf t s).left t = ReadersWriters.deleteSelf t (s.left t) := by
  unfold ReadersWriters.deleteSelf State.left
  split <;> rfl

theorem Inv.writerOut (h : Inv s) (hwait : s.waiting t = none) (hnew : newest s t = some .writer) :
    Inv (writerOut t s) := by
  have hmem := List.mem_of_find?_eq_some (found_of_newest hnew)
  have hn : s.n < 0 := by
    by_contra hn
    cases (h.readers hn).1 _ hmem
  obtain ⟨w,hw⟩ := h.written hn
  obtain ⟨-,rest,hi,he⟩ := hw.newest hnew
  have hc := hw.count
  rw [hi,List.length_cons] at hc
  have hleft : Inv { s with n := s.n + 1, inside := rest } := by
    refine ⟨?_,h.told,h.waits⟩
    by_cases hrest : rest = []
    · refine .inl ⟨fun g hg => ?_,?_⟩
      · dsimp only at hg
        rw [hrest] at hg
        cases hg
      · rw [hrest] at hc ⊢
        dsimp only
        rw [List.length_nil] at hc ⊢
        omega
    · exact .inr ⟨w,hw.release hi hrest⟩
  have hstate : { s with n := s.n + 1 }.left t = { s with n := s.n + 1, inside := rest } := by
    unfold State.left
    rw [he]
  unfold ReadersWriters.writerOut
  dsimp only
  split
  · have hrest : rest = [] := List.eq_nil_of_length_eq_zero (by omega)
    rw [deleteSelf_left,hstate]
    exact hleft.deleteSelf hrest hwait
  · rw [hstate]
    exact hleft

theorem Inv.step (h : Inv s) {a : Act T} (hn : Nested s a) (hc : Clear s a) : Inv (step s a) := by
  cases a with
  | readerIn t => exact h.enter .reader hc h.readerLoop
  | writerIn t => exact h.enter .writer hc h.writerLoop
  | wake t => exact h.wake
  | readerOut t => exact h.readerOut hn.2
  | writerOut t => exact h.writerOut hn.1 hn.2

/-- Whoever is taken for the thread with identifier 0 comes in beside it. -/
theorem Inv.confused (h : Inv s) {side : Side} {loop : T → State T → Option Nat → State T}
    (hc : s.self t = none ∧ s.n < 0 ∧ s.writerId = 0) : ¬ Excludes (ReadersWriters.again t s side loop) := by
  obtain ⟨hnone,hn,hid⟩ := hc
  obtain ⟨w,hw⟩ := h.written hn
  have htw : t ≠ w := by
    rintro rfl
    have hk := hw.known
    rw [hnone] at hk
    cases hk
  have hin : (ReadersWriters.again t s side loop).inside = (t,side) :: s.inside := by
    unfold ReadersWriters.again
    dsimp only
    rw [if_pos ⟨hn,by rw [hid,hnone]; rfl⟩]
    rfl
  have hmem := List.mem_cons_of_mem (t,side) hw.mem
  rintro (⟨hr,-⟩ | ⟨v,-,hall,-⟩)
  · rw [hin] at hr
    cases hr _ hmem
  · rw [hin] at hall
    exact htw ((hall _ List.mem_cons_self).trans (hall _ hmem).symm)

theorem Inv.broken (h : Inv s) {a : Act T} (hc : ¬ Clear s a) : ¬ Excludes (ReadersWriters.step s a) := by
  cases a with
  | readerIn t => exact h.confused (not_not.mp hc)
  | writerIn t => exact h.confused (not_not.mp hc)
  | wake t => exact absurd trivial hc
  | readerOut t => exact absurd trivial hc
  | writerOut t => exact absurd trivial hc

end Steps

/-- The lock excludes in every state of a run exactly when no thread without an identifier comes while the thread with
identifier 0 is the writer. -/
theorem excludes_iff (r : Run T) : (∀ l, l <+: r.acts → Excludes (l.foldl step r.threads.start)) ↔
    Along step Clear r.threads.start r.acts :=
  along_exact Nested (fun _ hi => hi.excludes) (fun _ _ hi hn hc => hi.step hn hc) (fun _ _ hi _ hc => hi.broken hc)
    (start_inv r.threads) r.nested

end Runs

/-- A thread of omni with identifier 0, and one of another library. -/
def mainAndForeign : Threads Bool where
  self t := if t then some 0 else none
  nextId := 1
  told := by
    refine ⟨?_,?_⟩
    · intro t u i ht hu
      cases t <;> cases u <;> simp_all
    · intro t i ht
      cases t <;> simp_all

/-- The other thread reads while the first one writes. -/
theorem foreign_reads_beside_writer : ∃ r : Run Bool, r.threads = mainAndForeign ∧
    r.acts = [.writerIn true,.readerIn false] ∧
    ¬ ∀ l, l <+: r.acts → Excludes (l.foldl step r.threads.start) := by
  refine ⟨⟨mainAndForeign,[.writerIn true,.readerIn false],⟨rfl,rfl,trivial⟩⟩,rfl,rfl,fun hall => ?_⟩
  rcases hall _ (List.prefix_refl _) with ⟨hr,-⟩ | ⟨w,-,hw,-⟩
  · cases hr (true,.writer) (List.mem_cons_of_mem _ List.mem_cons_self)
  · cases (hw (false,.reader) List.mem_cons_self).trans
      (hw (true,.writer) (List.mem_cons_of_mem _ List.mem_cons_self)).symm

end CppTango.Device.ReadersWriters
