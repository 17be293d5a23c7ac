import CppTango.Data
import CppTango.Lib.Ring
import Mathlib.Logic.Function.Basic

namespace CppTango.Client.Events

open CppTango.Lib

inductive EventType
  | event | attrConf | dataReady | devIntrChange | pipe
deriving DecidableEq, Repr

/-- The queue keeps one vector of pointers for each event type; insertion index and count
are shared. -/
structure EventQueue (ε : Type) where
  maxElt : Nat
  insertElt : Nat
  nbElt : Nat
  buffer : EventType → List (Option ε)

variable {ε : Type}

def eventQueue (maxSize : Nat) : EventQueue ε := ⟨maxSize,0,0,fun _ => []⟩

def incIndexes (q : EventQueue ε) : EventQueue ε :=
  if q.maxElt = 0 then { q with insertElt := q.insertElt + 1, nbElt := q.nbElt + 1 }
  else
    { q with
      insertElt := nextIndex q.maxElt q.insertElt
      nbElt := if q.nbElt ≠ q.maxElt then q.nbElt + 1 else q.nbElt }

/-- The vector an event is stored in: allocated when it is empty, the slot at the insertion
index overwritten. -/
def stored (q : EventQueue ε) (buf : List (Option ε)) (e : ε) : Option (List (Option ε)) :=
  if q.maxElt = 0 then some (buf ++ [some e])
  else
    let buf := if buf = [] then List.replicate q.maxElt none else buf
    if q.insertElt < buf.length then some (buf.set q.insertElt (some e)) else none

/-- `insert_event` of the vector of type `t`. There is no result here and below when the code
leaves the bounds of a vector or follows a null pointer. -/
def insertEvent (t : EventType) (e : ε) (q : EventQueue ε) : Option (EventQueue ε) :=
  (stored q (q.buffer t) e).map (fun buf =>
    incIndexes { q with buffer := Function.update q.buffer t buf })

def size (q : EventQueue ε) : Nat := q.nbElt

/-- An element of a vector, by the signed index the code computes. -/
def slot (buf : List (Option ε)) (index : Int) : Option (Option ε) :=
  if 0 ≤ index then buf[index.toNat]? else none

def prevElt (maxElt : Nat) (index : Int) : Int := (if index = 0 then (maxElt : Int) else index) - 1

/-- The loop of `get_events`: `n` slots backwards from `index`, each set to null when it is
read; `acc` is the end of the returned vector that is filled so far. -/
def readBack (maxElt : Nat) : Nat → List (Option ε) → Int → List (Option ε) → Option (List (Option ε))
  | 0,_,_,acc => some acc
  | n+1,buf,index,acc =>
    match slot buf index with
    | none => none
    | some p => readBack maxElt n (buf.set index.toNat none) (prevElt maxElt index) (p :: acc)

def getEvents (t : EventType) (q : EventQueue ε) : Option (List (Option ε) × EventQueue ε) :=
  (readBack q.maxElt q.nbElt (q.buffer t) (prevElt q.maxElt q.insertElt) []).map (fun l =>
    (l,{ q with buffer := Function.update q.buffer t [], insertElt := 0, nbElt := 0 }))

/-- `get_events` for a callback: which vector it takes. -/
def getEventsCb (q : EventQueue ε) : Option (List (Option ε) × EventQueue ε) :=
  if q.buffer .event ≠ [] then getEvents .event q
  else if q.buffer .attrConf ≠ [] then getEvents .attrConf q
  else if q.buffer .devIntrChange ≠ [] then getEvents .devIntrChange q
  else getEvents .dataReady q

section Dates
variable (date : ε → TimeVal)

def dateAt (buf : List (Option ε)) (index : Int) : Option (Except Unit TimeVal) :=
  (slot buf index).join.map (fun e => .ok (date e))

/-- The date, or `API_EventQueues` thrown. The data ready branch looks into the vector of the
configuration events unless the index has just come round. -/
def getLastEventDate (q : EventQueue ε) : Option (Except Unit TimeVal) :=
  if q.buffer .event ≠ [] then
    if q.insertElt = 0 then dateAt date (q.buffer .event) (q.maxElt - 1)
    else dateAt date (q.buffer .event) (q.insertElt - 1)
  else if q.buffer .attrConf ≠ [] then
    if q.insertElt = 0 then dateAt date (q.buffer .attrConf) (q.maxElt - 1)
    else dateAt date (q.buffer .attrConf) (q.insertElt - 1)
  else if q.buffer .dataReady ≠ [] then
    if q.insertElt = 0 then dateAt date (q.buffer .dataReady) (q.maxElt - 1)
    else dateAt date (q.buffer .attrConf) (q.insertElt - 1)
  else some (.error ())

end Dates

inductive Call (ε : Type)
  | insertEvent (e : ε)
  | size
  | getLastEventDate
  | getEvents
  | getEventsCb
deriving DecidableEq, Repr

inductive Answer (ε : Type)
  | done
  | size (n : Nat)
  | date (d : TimeVal)
  | noEvent
  | events (l : List (Option ε))
deriving DecidableEq, Repr

section Runs
variable (date : ε → TimeVal) (t : EventType)

def step (q : EventQueue ε) : Call ε → Option (Answer ε × EventQueue ε)
  | .insertEvent e => (insertEvent t e q).map (fun q => (.done,q))
  | .size => some (.size (size q),q)
  | .getLastEventDate => (getLastEventDate date q).map (fun
    | .ok d => (.date d,q)
    | .error _ => (.noEvent,q))
  | .getEvents => (getEvents t q).map (fun r => (.events r.1,r.2))
  | .getEventsCb => (getEventsCb q).map (fun r => (.events r.1,r.2))

/-- The answers of a queue used for one event type. -/
def run : EventQueue ε → List (Call ε) → Option (List (Answer ε))
  | _,[] => some []
  | q,c::cs =>
    match step date t q c with
    | none => none
    | some (a,q) => (run q cs).map (a :: ·)

end Runs

section Fifo
variable (date : ε → TimeVal) (m : Nat)

/-- What a queue of capacity `m` still has of the events inserted since it was emptied. -/
def kept (pending : List ε) : List ε := if m = 0 then pending else pending.drop (pending.length - m)

theorem kept_length (pending : List ε) :
    (kept m pending).length = if m = 0 then pending.length else min pending.length m := by
  unfold kept
  split
  · rfl
  · rw [List.length_drop]
    omega

/-- The queue as it is meant: a list of pending events. -/
def fifo (pending : List ε) : Call ε → Answer ε × List ε
  | .insertEvent e => (.done,pending ++ [e])
  | .size => (.size (kept m pending).length,pending)
  | .getLastEventDate =>
    match pending.getLast? with
    | some e => (.date (date e),pending)
    | none => (.noEvent,pending)
  | .getEvents => (.events ((kept m pending).map some),[])
  | .getEventsCb => (.events ((kept m pending).map some),[])

def fifoRun : List ε → List (Call ε) → List (Answer ε)
  | _,[] => []
  | pending,c::cs => (fifo date m pending c).1 :: fifoRun (fifo date m pending c).2 cs

/-- The calls that are made for every event type: with no event pending all of them. The date
is looked for among value and configuration events, and among data ready events when a ring
has come round; a callback gets all but pipe events. -/
def Served (t : EventType) (pending : List ε) : Call ε → Prop
  | .getLastEventDate =>
    match t with
    | .event | .attrConf => True
    | .dataReady => pending = [] ∨ (m ≠ 0 ∧ m ∣ pending.length)
    | .devIntrChange | .pipe => pending = []
  | .getEventsCb => t = .pipe → pending = []
  | _ => True

def ServedRun (t : EventType) : List ε → List (Call ε) → Prop
  | _,[] => True
  | pending,c::cs => Served m t pending c ∧ ServedRun t (fifo date m pending c).2 cs

end Fifo

section Rep

def writePtr (e : ε) (_ : Option ε) : Option ε := some e

/-- How a queue that is used for type `t` holds the pending events. -/
structure Rep (m : Nat) (t : EventType) (pending : List ε) (q : EventQueue ε) : Prop where
  capacity : q.maxElt = m
  others : ∀ u, u ≠ t → q.buffer u = []
  idle : pending = [] → q.buffer t = []
  unbounded : m = 0 → q.buffer t = pending.map some ∧ q.insertElt = pending.length ∧
    q.nbElt = pending.length
  ring : ∀ hm : 0 < m, ∃ r, r = Ring.run writePtr (Ring.make m none hm) pending ∧
    q.insertElt = r.insertElt ∧ q.nbElt = r.nbElt ∧ (pending ≠ [] → q.buffer t = r.cells)

theorem rep_empty (m : Nat) (t : EventType) : Rep m t [] (eventQueue m : EventQueue ε) where
  capacity := rfl
  others := fun _ _ => rfl
  idle := fun _ => rfl
  unbounded := fun _ => ⟨rfl,rfl,rfl⟩
  ring := fun _ => ⟨_,rfl,rfl,rfl,fun h => absurd rfl h⟩

variable {m : Nat} {t : EventType} {pending : List ε} {q : EventQueue ε}

/-- The vector of the type once it is allocated. -/
theorem Rep.cells (h : Rep m t pending q) (hm : 0 < m) :
    (if q.buffer t = [] then List.replicate q.maxElt none else q.buffer t) =
      (Ring.run writePtr (Ring.make m none hm) pending).cells := by
  obtain ⟨r,rfl,-,-,hb⟩ := h.ring hm
  by_cases hp : pending = []
  · rw [if_pos (h.idle hp),h.capacity,hp]
    rfl
  · have hne : (Ring.run writePtr (Ring.make m none hm) pending).cells ≠ [] := by
      apply List.ne_nil_of_length_pos
      rw [Ring.run_length]
      simpa [Ring.make] using hm
    rw [hb hp,if_neg hne]

theorem rep_insert_unbounded (h : Rep 0 t pending q) (e : ε) :
    ∃ q', insertEvent t e q = some q' ∧ Rep 0 t (pending ++ [e]) q' := by
  obtain ⟨hb,hi,hn⟩ := h.unbounded rfl
  refine ⟨_,by rw [insertEvent,stored,if_pos h.capacity]; rfl,?_⟩
  simp only [incIndexes,h.capacity,if_true]
  exact
    { capacity := rfl
      others := fun u hu => by
        simp only [Function.update_of_ne hu]
        exact h.others u hu
      idle := fun hp => absurd hp (by simp)
      unbounded := fun _ => by simp [hb,hi,hn]
      ring := fun hm => absurd hm (Nat.lt_irrefl 0) }

theorem rep_insert_ring (h : Rep m t pending q) (hm : 0 < m) (e : ε) :
    ∃ q', insertEvent t e q = some q' ∧ Rep m t (pending ++ [e]) q' := by
  have hne : ¬ q.maxElt = 0 := by
    rw [h.capacity]
    omega
  obtain ⟨r,hr,hi,hn,-⟩ := h.ring hm
  have hlen : r.cells.length = m := by
    rw [hr,Ring.run_length]
    simp [Ring.make]
  have hlt : q.insertElt < r.cells.length := hi ▸ r.insert_lt
  have hst : stored q (q.buffer t) e = some (r.cells.set q.insertElt (some e)) := by
    unfold stored
    rw [if_neg hne]
    simp only [h.cells hm]
    rw [← hr,if_pos hlt]
  refine ⟨_,by rw [insertEvent,hst]; rfl,?_⟩
  simp only [incIndexes,hne,if_false]
  exact
    { capacity := h.capacity
      others := fun u hu => by
        simp only [Function.update_of_ne hu]
        exact h.others u hu
      idle := fun hp => absurd hp (by simp)
      unbounded := fun h0 => absurd h0 (by omega)
      ring := fun hm => by
        refine ⟨_,rfl,?_,?_,fun _ => ?_⟩
        · rw [Ring.run_snoc,← hr]
          simp only [Ring.store,hlen,h.capacity,hi]
        · rw [Ring.run_snoc,← hr]
          simp only [Ring.store,hlen,h.capacity,hn]
        · rw [Ring.run_snoc,← hr]
          simp only [Function.update_self,Ring.store,hi,List.set_eq_modify]
          rfl }

theorem rep_insert (h : Rep m t pending q) (e : ε) :
    ∃ q', insertEvent t e q = some q' ∧ Rep m t (pending ++ [e]) q' := by
  rcases Nat.eq_zero_or_pos m with rfl | hm
  · exact rep_insert_unbounded h e
  · exact rep_insert_ring h hm e

end Rep

section Reading
variable {m : Nat} {t : EventType} {pending : List ε} {q : EventQueue ε}

theorem prevElt_eq (depth i : Nat) (h : 0 < depth ∨ 0 < i) :
    prevElt depth i = (prevIndex depth i : Nat) := by
  unfold prevElt prevIndex
  split <;> split <;> omega

theorem slot_ofNat (buf : List (Option ε)) (i : Nat) : slot buf (i : Int) = buf[i]? := by
  simp [slot]

/-- A slot that is set to null is not met again within the depth. -/
theorem readBack_ring (n : Nat) (buf acc : List (Option ε)) (i : Nat) (hi : i < buf.length)
    (hn : n ≤ buf.length) :
    readBack buf.length n buf i acc = some ((Ring.walk buf i n).reverse ++ acc) := by
  induction n generalizing buf acc i with
  | zero => rfl
  | succ n ih =>
    have hw := Ring.walk_modify buf (fun _ => none) i 1 n hi (by omega) (by omega)
      (prevIndex buf.length i) (by
        simp only [prevIndex]
        split <;> omega)
    have hp : prevIndex buf.length i < buf.length := by
      simp only [prevIndex]
      split <;> omega
    have ih' := ih (buf.set i none) (buf[i] :: acc) (prevIndex buf.length i)
      (by simpa using hp) (by simp only [List.length_set]; omega)
    rw [List.length_set] at ih'
    simp only [readBack,slot_ofNat,List.getElem?_eq_getElem hi,Int.toNat_natCast,
      prevElt_eq _ _ (Or.inl (by omega : 0 < buf.length)),ih',Ring.walk]
    rw [List.set_eq_modify,hw]
    simp

theorem readBack_unbounded (n : Nat) (buf acc : List (Option ε)) (hn : n ≤ buf.length) :
    readBack 0 n buf (prevElt 0 n) acc = some (buf.take n ++ acc) := by
  induction n generalizing buf acc with
  | zero => rfl
  | succ n ih =>
    have hi : n < buf.length := hn
    have hp : prevElt 0 (n+1 : Nat) = (n : Int) := by
      simp only [prevElt]
      split <;> omega
    have ih' := ih (buf.set n none) (buf[n] :: acc) (by simp only [List.length_set]; omega)
    rw [hp]
    simp only [readBack,slot_ofNat,List.getElem?_eq_getElem hi,Int.toNat_natCast,ih']
    rw [List.take_set_of_le (Nat.le_refl n),List.take_succ_eq_append_getElem hi,List.append_assoc]
    rfl

theorem recent_pending (hm : 0 < m) (pending : List ε) (n : Nat) (hl : n ≤ pending.length)
    (hn : n ≤ m) :
    (Ring.run writePtr (Ring.make m none hm) pending).recent n =
      (pending.reverse.take n).map some := by
  have h := Ring.run_recent (P := fun _ => True) (R := fun (c : Option ε) o => c = some o)
    (fun _ _ _ => trivial) (fun _ _ _ => rfl) (Ring.make m none hm) (fun _ _ => trivial) pending n
    hl (by simpa [Ring.make] using hn)
  rw [← List.forall₂_eq_eq_eq,List.forall₂_map_right_iff]
  exact h

theorem Rep.nbElt (h : Rep m t pending q) : q.nbElt = (kept m pending).length := by
  rw [kept_length]
  rcases Nat.eq_zero_or_pos m with rfl | hm
  · exact (h.unbounded rfl).2.2
  · obtain ⟨r,rfl,-,hn,-⟩ := h.ring hm
    rw [hn,Ring.run_nbElt _ rfl,if_neg (by omega)]
    simp [Ring.make]

theorem Rep.readBack (h : Rep m t pending q) :
    readBack q.maxElt q.nbElt (q.buffer t) (prevElt q.maxElt q.insertElt) [] =
      some ((kept m pending).map some) := by
  rw [h.nbElt,h.capacity]
  by_cases hp : pending = []
  · have hk : kept m pending = [] := by simp [kept,hp]
    rw [hk]
    rfl
  rcases Nat.eq_zero_or_pos m with rfl | hm
  · obtain ⟨hb,hi,-⟩ := h.unbounded rfl
    have hk : kept 0 pending = pending := if_pos rfl
    rw [hi,hb,hk,readBack_unbounded _ _ _ (by simp),List.take_of_length_le (by simp),
      List.append_nil]
  · obtain ⟨r,hr,hi,-,hb⟩ := h.ring hm
    have hlen : r.cells.length = m := by
      rw [hr,Ring.run_length]
      simp [Ring.make]
    have hk : (kept m pending).length = min pending.length m := by
      rw [kept_length,if_neg (by omega)]
    have hlt : prevIndex m r.insertElt < r.cells.length := by
      have := r.insert_lt
      simp only [prevIndex]
      split <;> omega
    have hrec := recent_pending hm pending (min pending.length m) (by omega) (by omega)
    rw [← hr] at hrec
    unfold Ring.recent at hrec
    rw [hlen] at hrec
    rw [hk,hi,hb hp,prevElt_eq _ _ (Or.inl hm),← hlen,readBack_ring _ _ _ _ (hlen ▸ hlt) (by omega),
      hlen,hrec,kept,if_neg (by omega),← List.map_reverse,List.take_reverse,List.reverse_reverse]
    simp only [List.append_nil]
    congr 3
    omega

end Reading

section Calls
variable (date : ε → TimeVal) {m : Nat} {t : EventType} {pending : List ε} {q : EventQueue ε}

/-- The queue after `get_events`. -/
def emptied (t : EventType) (q : EventQueue ε) : EventQueue ε :=
  { q with buffer := Function.update q.buffer t [], insertElt := 0, nbElt := 0 }

theorem Rep.emptied (h : Rep m t pending q) : Rep m t [] (emptied t q) where
  capacity := h.capacity
  others := fun u hu => by
    simp only [Events.emptied,Function.update_of_ne hu]
    exact h.others u hu
  idle := fun _ => by simp [Events.emptied]
  unbounded := fun _ => by simp [Events.emptied]
  ring := fun _ => ⟨_,rfl,rfl,rfl,fun h => absurd rfl h⟩

theorem Rep.getEvents (h : Rep m t pending q) :
    getEvents t q = some ((kept m pending).map some,Events.emptied t q) := by
  unfold Events.getEvents
  rw [h.readBack]
  rfl

theorem Rep.all_empty (h : Rep m t [] q) (u : EventType) : q.buffer u = [] := by
  by_cases hu : u = t
  · rw [hu]
    exact h.idle rfl
  · exact h.others u hu

/-- An idle queue may be emptied by the `get_events` of any type. -/
theorem Rep.of_idle (h : Rep m t [] q) (u : EventType) : Rep m u [] q where
  capacity := h.capacity
  others := fun v _ => h.all_empty v
  idle := fun _ => h.all_empty u
  unbounded := fun h0 => ⟨h.all_empty u,(h.unbounded h0).2⟩
  ring := fun hm => by
    obtain ⟨r,hr,hi,hn,-⟩ := h.ring hm
    exact ⟨r,hr,hi,hn,fun hp => absurd rfl hp⟩

theorem Rep.allocated (h : Rep m t pending q) (hp : pending ≠ []) : q.buffer t ≠ [] := by
  rcases Nat.eq_zero_or_pos m with rfl | hm
  · rw [(h.unbounded rfl).1]
    simpa using hp
  · obtain ⟨r,-,-,-,hb⟩ := h.ring hm
    rw [hb hp]
    apply List.ne_nil_of_length_pos
    exact Nat.lt_of_le_of_lt (Nat.zero_le _) r.insert_lt

theorem Rep.getEventsCb (h : Rep m t pending q) (hs : t = .pipe → pending = []) :
    ∃ q', getEventsCb q = some ((kept m pending).map some,q') ∧ Rep m t [] q' := by
  unfold Events.getEventsCb
  by_cases hp : pending = []
  · subst hp
    simp only [h.all_empty,ne_eq,not_true,if_false]
    exact ⟨_,(h.of_idle .dataReady).getEvents,(h.of_idle .dataReady).emptied.of_idle t⟩
  have ht := h.allocated hp
  cases t with
  | event =>
    rw [if_pos ht]
    exact ⟨_,h.getEvents,h.emptied⟩
  | attrConf =>
    rw [if_neg (fun hn => hn (h.others .event (by decide))),if_pos ht]
    exact ⟨_,h.getEvents,h.emptied⟩
  | devIntrChange =>
    rw [if_neg (fun hn => hn (h.others .event (by decide))),
      if_neg (fun hn => hn (h.others .attrConf (by decide))),if_pos ht]
    exact ⟨_,h.getEvents,h.emptied⟩
  | dataReady =>
    rw [if_neg (fun hn => hn (h.others .event (by decide))),
      if_neg (fun hn => hn (h.others .attrConf (by decide))),
      if_neg (fun hn => hn (h.others .devIntrChange (by decide)))]
    exact ⟨_,h.getEvents,h.emptied⟩
  | pipe => exact absurd (hs rfl) hp

/-- Pipe events are looked for in the vector of the data ready events, which is empty. -/
theorem Rep.getEventsCb_pipe (h : Rep m .pipe pending q) (hp : pending ≠ []) :
    Events.getEventsCb q = none := by
  have hk : (kept m pending).length ≠ 0 := by
    have := List.length_pos_iff.mpr hp
    rw [kept_length]
    split <;> omega
  obtain ⟨n,hn⟩ := Nat.exists_eq_succ_of_ne_zero hk
  simp only [Events.getEventsCb,h.others .event (by decide),h.others .attrConf (by decide),
    h.others .devIntrChange (by decide),h.others .dataReady (by decide),ne_eq,not_true,if_false,
    Events.getEvents,h.nbElt,hn,Events.readBack,slot]
  split <;> simp_all

theorem Rep.newest (h : Rep m t pending q) {e : ε} (he : pending.getLast? = some e) :
    slot (q.buffer t) (if q.insertElt = 0 then (q.maxElt : Int) - 1 else q.insertElt - 1) =
      some (some e) := by
  have hp : pending ≠ [] := by
    rintro rfl
    cases he
  have hpos := List.length_pos_iff.mpr hp
  rw [h.capacity]
  rcases Nat.eq_zero_or_pos m with rfl | hm
  · obtain ⟨hb,hi,-⟩ := h.unbounded rfl
    have hx : (pending.length : Int) - 1 = (pending.length - 1 : Nat) := by omega
    rw [hi,if_neg (by omega),hx,slot_ofNat,hb,List.getElem?_map,← List.getLast?_eq_getElem?,he]
    rfl
  · obtain ⟨r,hr,hi,-,hb⟩ := h.ring hm
    have hlen : r.cells.length = m := by
      rw [hr,Ring.run_length]
      simp [Ring.make]
    have hx : (if r.insertElt = 0 then (m : Int) - 1 else r.insertElt - 1) =
        (prevIndex m r.insertElt : Nat) := by
      unfold prevIndex
      split <;> omega
    have hrec := recent_pending hm pending 1 hpos hm
    rw [← hr] at hrec
    simp only [Ring.recent,Ring.walk,hlen,List.append_nil] at hrec
    rw [hi,hx,slot_ofNat,hb hp]
    have hl : (pending.reverse.take 1).map some = [some e] := by
      obtain ⟨l,rfl⟩ := List.getLast?_eq_some_iff.mp he
      simp
    rw [hl] at hrec
    exact Option.toList_eq_singleton_iff.mp hrec

theorem Rep.insertElt_eq_zero (h : Rep m t pending q) (hp : pending ≠ []) :
    q.insertElt = 0 ↔ m ≠ 0 ∧ m ∣ pending.length := by
  have hpos := List.length_pos_iff.mpr hp
  rcases Nat.eq_zero_or_pos m with rfl | hm
  · rw [(h.unbounded rfl).2.1]
    constructor
    · intro h0
      omega
    · intro h0
      exact absurd rfl h0.1
  · obtain ⟨r,rfl,hi,-,-⟩ := h.ring hm
    rw [hi,Ring.run_insertElt _ rfl,Nat.dvd_iff_mod_eq_zero]
    simp only [Ring.make,List.length_replicate]
    constructor
    · intro h0
      exact ⟨by omega,h0⟩
    · intro h0
      exact h0.2

end Calls

section Dates
variable (date : ε → TimeVal) {m : Nat} {t : EventType} {pending : List ε} {q : EventQueue ε}

theorem dateAt_some {buf : List (Option ε)} {index : Int} {e : ε}
    (h : slot buf index = some (some e)) : dateAt date buf index = some (.ok (date e)) := by
  simp [dateAt,h]

theorem dateAt_empty (index : Int) : dateAt date [] index = none := by
  unfold dateAt slot
  split <;> rfl

theorem Rep.dateAt (h : Rep m t pending q) {e : ε} (he : pending.getLast? = some e) :
    (if q.insertElt = 0 then dateAt date (q.buffer t) (q.maxElt - 1)
      else dateAt date (q.buffer t) (q.insertElt - 1)) = some (.ok (date e)) := by
  have hn := h.newest he
  split
  next h0 =>
    rw [if_pos h0] at hn
    exact dateAt_some date hn
  next h0 =>
    rw [if_neg h0] at hn
    exact dateAt_some date hn

theorem Rep.no_date (h : Rep m t [] q) : getLastEventDate date q = some (.error ()) := by
  simp [getLastEventDate,h.all_empty]

theorem Rep.last_date (h : Rep m t pending q) (hs : Served m t pending .getLastEventDate) {e : ε}
    (he : pending.getLast? = some e) : getLastEventDate date q = some (.ok (date e)) := by
  have hp : pending ≠ [] := by
    rintro rfl
    cases he
  have ht := h.allocated hp
  have hd := h.dateAt date he
  unfold getLastEventDate
  cases t with
  | event => rw [if_pos ht,hd]
  | attrConf => rw [if_neg (fun hn => hn (h.others .event (by decide))),if_pos ht,hd]
  | dataReady =>
    have h0 := (h.insertElt_eq_zero hp).mpr (hs.resolve_left hp)
    rw [if_pos h0] at hd
    rw [if_neg (fun hn => hn (h.others .event (by decide))),
      if_neg (fun hn => hn (h.others .attrConf (by decide))),if_pos ht,if_pos h0,hd]
  | devIntrChange => exact absurd hs hp
  | pipe => exact absurd hs hp

/-- Elsewhere a pending event is not found: nothing is looked at, or an empty vector. -/
theorem Rep.date_missed (h : Rep m t pending q) (hs : ¬ Served m t pending .getLastEventDate)
    (d : TimeVal) : getLastEventDate date q ≠ some (.ok d) := by
  have hev : t ≠ .event := by
    rintro rfl
    exact hs trivial
  have hconf : t ≠ .attrConf := by
    rintro rfl
    exact hs trivial
  have hp : pending ≠ [] := by
    rintro rfl
    apply hs
    cases t
    all_goals first | trivial | rfl | exact Or.inl rfl
  unfold getLastEventDate
  rw [if_neg (fun hn => hn (h.others .event hev.symm)),
    if_neg (fun hn => hn (h.others .attrConf hconf.symm))]
  by_cases hr : t = .dataReady
  · subst hr
    have h0 : ¬ q.insertElt = 0 := fun h0 => hs (Or.inr ((h.insertElt_eq_zero hp).mp h0))
    rw [if_pos (h.allocated hp),if_neg h0,h.others .attrConf (by decide),dateAt_empty]
    simp
  · rw [if_neg (fun hn => hn (h.others .dataReady (Ne.symm hr)))]
    simp

end Dates

section Runs
variable (date : ε → TimeVal) {m : Nat} {t : EventType} {pending : List ε} {q : EventQueue ε}

theorem step_served (h : Rep m t pending q) (c : Call ε) (hs : Served m t pending c) :
    ∃ q', step date t q c = some ((fifo date m pending c).1,q') ∧
      Rep m t (fifo date m pending c).2 q' := by
  cases c with
  | insertEvent e =>
    obtain ⟨q',hq,hr⟩ := rep_insert h e
    exact ⟨q',by simp [step,hq,fifo],hr⟩
  | size => exact ⟨q,by simp [step,fifo,size,h.nbElt],h⟩
  | getLastEventDate =>
    unfold step fifo
    cases he : pending.getLast? with
    | none =>
      rw [List.getLast?_eq_none_iff] at he
      subst he
      exact ⟨q,by rw [h.no_date date]; rfl,h⟩
    | some e => exact ⟨q,by rw [h.last_date date hs he]; rfl,h⟩
  | getEvents => exact ⟨emptied t q,by simp [step,h.getEvents,fifo],h.emptied⟩
  | getEventsCb =>
    obtain ⟨q',hq,hr⟩ := h.getEventsCb hs
    exact ⟨q',by simp [step,hq,fifo],hr⟩

theorem step_unserved (h : Rep m t pending q) (c : Call ε) (hs : ¬ Served m t pending c)
    (q' : EventQueue ε) : step date t q c ≠ some ((fifo date m pending c).1,q') := by
  cases c with
  | insertEvent e => exact absurd trivial hs
  | size => exact absurd trivial hs
  | getEvents => exact absurd trivial hs
  | getLastEventDate =>
    have hp : pending ≠ [] := by
      rintro rfl
      apply hs
      cases t
      all_goals first | trivial | rfl | exact Or.inl rfl
    obtain ⟨e,he⟩ := Option.ne_none_iff_exists'.mp (mt List.getLast?_eq_none_iff.mp hp)
    unfold step fifo
    rw [he]
    intro hq
    obtain ⟨x,hx,hxa⟩ := Option.map_eq_some_iff.mp hq
    cases x with
    | ok d =>
      cases hxa
      exact h.date_missed date hs _ hx
    | error u => cases hxa
  | getEventsCb =>
    obtain ⟨rfl,hp⟩ := Classical.not_imp.mp hs
    simp [step,h.getEventsCb_pipe hp]

theorem run_iff_served (h : Rep m t pending q) (calls : List (Call ε)) :
    run date t q calls = some (fifoRun date m pending calls) ↔ ServedRun date m t pending calls := by
  induction calls generalizing pending q with
  | nil => simp [run,fifoRun,ServedRun]
  | cons c cs ih =>
    unfold run fifoRun ServedRun
    by_cases hs : Served m t pending c
    · obtain ⟨q',hq,hr⟩ := step_served date h c hs
      rw [hq,← ih hr]
      simp [hs]
    · have hq := step_unserved date h c hs
      constructor
      · intro hrun
        cases hst : step date t q c with
        | none => simp [hst] at hrun
        | some r =>
          obtain ⟨a,q'⟩ := r
          simp only [hst,Option.map_eq_some_iff,List.cons.injEq] at hrun
          obtain ⟨as,-,ha,-⟩ := hrun
          exact absurd (ha ▸ hst) (hq q')
      · intro hsr
        exact absurd hsr.1 hs

end Runs

section Main
variable (date : ε → TimeVal) (m : Nat) (t : EventType)

/-- A queue answers like a bounded FIFO in exactly the runs whose calls are made for the
event type. -/
theorem event_queue_fifo (calls : List (Call ε)) :
    run date t (eventQueue m) calls = some (fifoRun date m [] calls) ↔
      ServedRun date m t [] calls :=
  run_iff_served date (rep_empty m t) calls

end Main

/-- An interface change event is pending and its date is asked for. -/
theorem intr_change_date_refused :
    run (fun n : Nat => ⟨n,0,0⟩) .devIntrChange (eventQueue 0) [.insertEvent 5,.getLastEventDate] =
        some [.done,.noEvent] ∧
      fifoRun (fun n : Nat => ⟨n,0,0⟩) 0 [] [.insertEvent 5,.getLastEventDate] =
        [.done,.date ⟨5,0,0⟩] := by
  constructor <;> rfl

end CppTango.Client.Events
