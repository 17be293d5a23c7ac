import Mathlib.Data.List.Basic
import Mathlib.Data.List.Forall2
import Mathlib.Data.List.Induction

namespace CppTango.Lib

/-- A circular buffer of fixed positive depth; the next write goes to `insertElt`. -/
structure Ring (α : Type) where
  cells : List α
  insertElt : Nat
  nbElt : Nat
  insert_lt : insertElt < cells.length
  nb_le : nbElt ≤ cells.length

/-- The index read before `index` when a ring of that depth is walked backwards. -/
def prevIndex (depth index : Nat) : Nat := (if index = 0 then depth else index) - 1

def nextIndex (depth index : Nat) : Nat := if index + 1 = depth then 0 else index + 1

namespace Ring

def make (depth : Nat) (c : α) (h : 0 < depth) : Ring α where
  cells := List.replicate depth c
  insertElt := 0
  nbElt := 0
  insert_lt := by simpa using h
  nb_le := Nat.zero_le _

theorem depth_pos (r : Ring α) : 0 < r.cells.length := Nat.lt_of_le_of_lt (Nat.zero_le _) r.insert_lt

/-- Change the cell at the insertion index, then advance the indexes. -/
def store (r : Ring α) (f : α → α) : Ring α where
  cells := r.cells.modify r.insertElt f
  insertElt := nextIndex r.cells.length r.insertElt
  nbElt := if r.nbElt ≠ r.cells.length then r.nbElt + 1 else r.nbElt
  insert_lt := by
    have := r.insert_lt
    simp only [List.length_modify,nextIndex]
    split <;> omega
  nb_le := by
    have := r.nb_le
    simp only [List.length_modify]
    split <;> omega

def walk (cells : List α) : Nat → Nat → List α
  | _,0 => []
  | index,n+1 => (cells[index]?).toList ++ walk cells (prevIndex cells.length index) n

/-- The `n` newest cells, newest first. -/
def recent (r : Ring α) (n : Nat) : List α :=
  walk r.cells (prevIndex r.cells.length r.insertElt) n

theorem prev_next (depth i : Nat) : prevIndex depth (nextIndex depth i) = i := by
  simp only [prevIndex,nextIndex]
  split <;> split <;> omega

theorem prevIndex_lt {depth i : Nat} (h : i < depth) : prevIndex depth i < depth := by
  unfold prevIndex
  split <;> omega

/-- Walking back from the written cell does not meet it again within the depth. -/
theorem walk_modify (cells : List α) (f : α → α) (ins j n : Nat) (hi : ins < cells.length)
    (hj : 0 < j) (hn : j + n ≤ cells.length) (index : Nat)
    (hx : index + j = ins ∨ index + j = ins + cells.length) :
    walk (cells.modify ins f) index n = walk cells index n := by
  induction n generalizing j index with
  | zero => rfl
  | succ n ih =>
    have hne : ins ≠ index := by omega
    have hstep : prevIndex cells.length index + (j+1) = ins ∨
        prevIndex cells.length index + (j+1) = ins + cells.length := by
      simp only [prevIndex]
      split <;> omega
    simp only [walk,List.length_modify,List.getElem?_modify,hne,if_false,Option.map_eq_map,
      Option.map_id']
    rw [ih (j+1) (by omega) (by omega) _ hstep]

/-- The cell the next write changes. -/
def slot (r : Ring α) : α := r.cells.get ⟨r.insertElt,r.insert_lt⟩

theorem slot_mem (r : Ring α) : r.slot ∈ r.cells := List.get_mem ..

theorem recent_store (r : Ring α) (f : α → α) (n : Nat) (hn : n < r.cells.length) :
    (r.store f).recent (n+1) = f r.slot :: r.recent n := by
  have hc : r.cells[r.insertElt]? = some r.slot := List.getElem?_eq_getElem r.insert_lt
  have hw := walk_modify r.cells f r.insertElt 1 n r.insert_lt (by omega) (by omega)
    (prevIndex r.cells.length r.insertElt) (by
      have := r.insert_lt
      simp only [prevIndex]
      split <;> omega)
  simp only [recent,store,List.length_modify,prev_next,walk]
  rw [hw]
  simp [hc]

@[simp] theorem store_length (r : Ring α) (f : α → α) :
    (r.store f).cells.length = r.cells.length := by simp [store]

theorem mem_modify {l : List α} {i : Nat} {f : α → α} {c : α} (h : c ∈ l.modify i f) :
    c ∈ l ∨ ∃ d ∈ l, f d = c := by
  obtain ⟨j,hj⟩ := List.mem_iff_getElem?.mp h
  rw [List.getElem?_modify] at hj
  cases hl : l[j]? with
  | none => simp [hl] at hj
  | some d =>
    have hm := List.mem_of_getElem? hl
    by_cases hij : i = j
    · right
      exact ⟨d,hm,by simpa [hl,hij] using hj⟩
    · left
      have he : d = c := by simpa [hl,hij] using hj
      exact he ▸ hm

section Log
variable {ω : Type} (write : ω → α → α)

/-- The ring after a log of writes, oldest first. -/
def run (r : Ring α) (log : List ω) : Ring α := log.foldl (fun r o => r.store (write o)) r

variable {write}

@[simp] theorem run_snoc (r : Ring α) (log : List ω) (o : ω) :
    run write r (log ++ [o]) = (run write r log).store (write o) := by simp [run]

@[simp] theorem run_length (r : Ring α) (log : List ω) :
    (run write r log).cells.length = r.cells.length := by
  induction log using List.reverseRecOn with
  | nil => rfl
  | append_singleton log o ih => simp [ih]

theorem run_nbElt (r : Ring α) (h : r.nbElt = 0) (log : List ω) :
    (run write r log).nbElt = min log.length r.cells.length := by
  induction log using List.reverseRecOn with
  | nil => simp [run,h]
  | append_singleton log o ih =>
    have hl : (run write r log).cells.length = r.cells.length := run_length r log
    simp only [run_snoc,store,ih,hl,List.length_append,List.length_cons,List.length_nil]
    split <;> omega

theorem run_insertElt (r : Ring α) (h : r.insertElt = 0) (log : List ω) :
    (run write r log).insertElt = log.length % r.cells.length := by
  have hd : 0 < r.cells.length := Nat.lt_of_le_of_lt (Nat.zero_le _) r.insert_lt
  induction log using List.reverseRecOn with
  | nil => simp [run,h]
  | append_singleton log o ih =>
    have hl : (run write r log).cells.length = r.cells.length := run_length r log
    have hlt := Nat.mod_lt log.length hd
    simp only [run_snoc,store,ih,hl,List.length_append,List.length_cons,List.length_nil,nextIndex]
    rw [Nat.zero_add,← Nat.mod_add_mod log.length r.cells.length 1]
    split
    next he => rw [he,Nat.mod_self]
    next he => rw [Nat.mod_eq_of_lt (Nat.lt_of_le_of_ne hlt he)]

theorem run_cells {P : α → Prop} (hw : ∀ o c, P c → P (write o c)) (r : Ring α)
    (h0 : ∀ c ∈ r.cells, P c) (log : List ω) : ∀ c ∈ (run write r log).cells, P c := by
  induction log using List.reverseRecOn with
  | nil => exact h0
  | append_singleton log o ih =>
    intro c hc
    simp only [run_snoc,store] at hc
    rcases mem_modify hc with hc | ⟨d,hd,rfl⟩
    · exact ih c hc
    · exact hw o d (ih d hd)

/-- A cell is marked when one of the writes to it marked it, if none clears the mark. -/
theorem run_marked {marked : α → Prop} {marks : ω → Prop} (hw : ∀ o c, marked (write o c) ↔ marks o ∨ marked c)
    (r : Ring α) (hi : r.insertElt = 0) (h0 : ∀ c ∈ r.cells, ¬marked c) (log : List ω) (j : Nat) {c : α}
    (hc : (run write r log).cells[j]? = some c) :
    marked c ↔ ∃ i, i % r.cells.length = j ∧ ∃ o, log[i]? = some o ∧ marks o := by
  induction log using List.reverseRecOn generalizing c with
  | nil => exact iff_of_false (h0 c (List.mem_of_getElem? hc)) (by simp)
  | append_singleton log o ih =>
    have hins : (run write r log).insertElt = log.length % r.cells.length := run_insertElt r hi log
    have hlast : (log ++ [o])[log.length]? = some o := by simp
    have hsplit : ∀ {i o'}, (log ++ [o])[i]? = some o' → log[i]? = some o' ∨ i = log.length ∧ o' = o := by
      intro i o' h
      rcases Nat.lt_or_ge i log.length with hlt | hge
      · exact .inl (by rwa [List.getElem?_append_left hlt] at h)
      · have hlen := (List.getElem?_eq_some_iff.mp h).1
        rw [List.length_append,List.length_singleton] at hlen
        obtain rfl : i = log.length := by omega
        exact .inr ⟨rfl,Option.some.inj (h.symm.trans hlast)⟩
    have hinit : ∀ {i o'}, log[i]? = some o' → (log ++ [o])[i]? = some o' := fun h => by
      rw [List.getElem?_append_left (List.getElem?_eq_some_iff.mp h).1]
      exact h
    simp only [run_snoc,store,List.getElem?_modify,hins] at hc
    split at hc
    next hj =>
      obtain ⟨d,hd,rfl⟩ := Option.map_eq_some_iff.mp hc
      rw [hw,ih hd]
      constructor
      · rintro (ho | ⟨i,hm,o',ho',hmarks⟩)
        · exact ⟨log.length,hj,o,hlast,ho⟩
        · exact ⟨i,hm,o',hinit ho',hmarks⟩
      · rintro ⟨i,hm,o',ho',hmarks⟩
        rcases hsplit ho' with ho' | ⟨-,rfl⟩
        · exact .inr ⟨i,hm,o',ho',hmarks⟩
        · exact .inl hmarks
    next hj =>
      rw [ih (by simpa using hc)]
      constructor
      · rintro ⟨i,hm,o',ho',hmarks⟩
        exact ⟨i,hm,o',hinit ho',hmarks⟩
      · rintro ⟨i,hm,o',ho',hmarks⟩
        rcases hsplit ho' with ho' | ⟨rfl,-⟩
        · exact ⟨i,hm,o',ho',hmarks⟩
        · exact absurd hm hj

/-- Something that holds at each write of the written thing and of the cell it is written over. -/
def Each (write : ω → α → α) (Q : ω → α → Prop) (r : Ring α) (log : List ω) : Prop :=
  ∀ pre o post, log = pre ++ o :: post → Q o (run write r pre).slot

/-- What is read back is what was written, newest first, up to the depth. -/
theorem run_recent_each {Q : ω → α → Prop} {R : α → ω → Prop} (hw : ∀ o c, Q o c → R (write o c) o) (r : Ring α)
    {log : List ω} (h : Each write Q r log) (n : Nat) (hn : n ≤ log.length) (hd : n ≤ r.cells.length) :
    List.Forall₂ R ((run write r log).recent n) (log.reverse.take n) := by
  induction log using List.reverseRecOn generalizing n with
  | nil =>
    simp only [List.length_nil,Nat.le_zero] at hn
    subst n
    exact .nil
  | append_singleton log o ih =>
    cases n with
    | zero => exact .nil
    | succ n =>
      simp only [List.length_append,List.length_cons,List.length_nil] at hn
      have hc := recent_store (run write r log) (write o) n (by simp; omega)
      simp only [run_snoc,hc,List.reverse_append,List.reverse_cons,List.reverse_nil,
        List.nil_append,List.cons_append,List.take_succ_cons]
      have hlog : Each write Q r log := fun pre o' post he => h pre o' (post ++ [o]) (by simp [he])
      exact .cons (hw o _ (h log o [] rfl)) (ih hlog n (by omega) (by omega))

/-- The same with an invariant of the cells. -/
theorem run_recent {P : α → Prop} {R : α → ω → Prop} (hp : ∀ o c, P c → P (write o c))
    (hw : ∀ o c, P c → R (write o c) o) (r : Ring α) (h0 : ∀ c ∈ r.cells, P c)
    (log : List ω) (n : Nat) (hn : n ≤ log.length) (hd : n ≤ r.cells.length) :
    List.Forall₂ R ((run write r log).recent n) (log.reverse.take n) :=
  run_recent_each hw r (fun pre _ _ _ => run_cells hp r h0 pre _ (slot_mem _)) n hn hd

end Log

end Ring

end CppTango.Lib
