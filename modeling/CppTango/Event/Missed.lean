import CppTango.Event.Delivery
import Mathlib.Algebra.Ring.Nat

namespace CppTango.Event.Missed

variable {α : Type}

section Model

/-- A copy of a push on its way: which push of which life of the server, and the message. -/
structure Sent (α : Type) where
  life : Nat
  index : Nat
  message : Message α
deriving DecidableEq, Repr

def Sent.key (x : Sent α) : Nat × Nat := (x.life,x.index)

/-- A message that a client has received, and the calls of its callback. -/
structure Receipt (α : Type) extends Sent α where
  calls : List (Callback α)
deriving DecidableEq, Repr

def Receipt.key (r : Receipt α) : Nat × Nat := r.toSent.key

/-- A server, a client and the messages between them. -/
structure Link (α : Type) where
  supplier : Supplier
  life : Nat
  pushed : Nat
  inFlight : List (Sent α)
  client : EventCallBack α
  receipts : List (Receipt α)
deriving DecidableEq, Repr

inductive Act (α : Type)
  | push (value : α) (twice : Bool)
  | restart
  | lose (n : Nat)
  | receive
deriving DecidableEq, Repr

/-- A server with clients of one release. -/
def server (release : Nat) : Supplier := initEventCptr { Supplier.start with clientLib := [release] }

def start (release : Nat) : Link α := ⟨server release,0,0,[],⟨topicOf release,0,false,0,[]⟩,[]⟩

def copies (twice : Bool) (x : Sent α) : List (Sent α) := if twice then [x,x] else [x]

def received (w : Link α) (x : Sent α) (rest : List (Sent α)) : Link α :=
  let client := pushZmqEvent w.client x.message
  { w with
    inFlight := rest
    client := client
    receipts := w.receipts ++ [⟨x,client.received.drop w.client.received.length⟩] }

def step (release : Nat) (w : Link α) : Act α → Link α
  | .push value twice =>
    let r := pushEventLoop value w.supplier
    { w with
      supplier := r.2
      pushed := w.pushed + 1
      inFlight := w.inFlight ++ r.1.flatMap (fun m => copies twice ⟨w.life,w.pushed + 1,m⟩) }
  | .restart => { w with supplier := server release, life := w.life + 1, pushed := 0 }
  | .lose n => { w with inFlight := w.inFlight.eraseIdx n }
  | .receive =>
    match w.inFlight with
    | [] => w
    | x :: rest => received w x rest

def run (release : Nat) (w : Link α) (acts : List (Act α)) : Link α := acts.foldl (step release) w

end Model

section Claim

/-- A receipt behind others: a second copy is dropped, anything else is delivered once, and pushes
lost between it and the one before it in the same life are reported. -/
def Judged (prev : List (Receipt α)) (r : Receipt α) : Prop :=
  if r.key ∈ prev.map Receipt.key then r.calls = []
  else ∃ missed : Bool,
    r.calls = (if missed then [.missedEvents] else []) ++ [.data r.message.format r.message.value] ∧
    ∀ p, prev.getLast? = some p → p.life = r.life → (missed = true ↔ p.index + 1 < r.index)

def Right (receipts : List (Receipt α)) : Prop :=
  ∀ prev r post, receipts = prev ++ r :: post → Judged prev r

theorem right_snoc {l : List (Receipt α)} {r : Receipt α} (h : Right l) (hr : Judged l r) :
    Right (l ++ [r]) := by
  intro prev r' post he
  rcases List.eq_nil_or_concat post with rfl | ⟨post',q,rfl⟩
  · obtain ⟨rfl,hq⟩ := List.append_inj' he rfl
    cases hq
    exact hr
  · rw [List.concat_eq_append,← List.cons_append,← List.append_assoc] at he
    obtain ⟨rfl,-⟩ := List.append_inj' he rfl
    exact h prev r' post' rfl

theorem judged_new {prev : List (Receipt α)} {r : Receipt α} (missed : Bool)
    (hnew : r.key ∉ prev.map Receipt.key)
    (hr : r.calls =
      (if missed then [.missedEvents] else []) ++ [.data r.message.format r.message.value])
    (hm : ∀ p, prev.getLast? = some p → p.life = r.life → (missed = true ↔ p.index + 1 < r.index)) :
    Judged prev r := by
  unfold Judged
  rw [if_neg hnew]
  exact ⟨missed,hr,hm⟩

theorem judged_old {prev : List (Receipt α)} {r : Receipt α} (hold : r.key ∈ prev.map Receipt.key)
    (hr : r.calls = []) : Judged prev r := by
  unfold Judged
  rwa [if_pos hold]

/-- What the next message must not be: the first one with a number that is 0, one behind a number
that is 0 with pushes lost in between, one behind too many lost pushes, or the first one of a new
life with the number of the last one, unless that one was a second copy. -/
def ClearNext (receipts : List (Receipt α)) (x : Sent α) : Prop :=
  (receipts = [] → x.index % 2 ^ 32 ≠ 0) ∧
  ∀ p ∈ receipts.getLast?,
    (p.life = x.life →
      x.index < p.index + 2 ^ 31 ∧ (p.index % 2 ^ 32 = 0 → x.index ≤ p.index + 1)) ∧
    (p.life < x.life →
      p.key ∈ receipts.dropLast.map Receipt.key ∨ x.index % 2 ^ 32 ≠ p.index % 2 ^ 32)

def Clear (w : Link α) : Act α → Prop
  | .receive => ∀ x ∈ w.inFlight.head?, ClearNext w.receipts x
  | _ => True

def ClearRun (release : Nat) (w : Link α) : List (Act α) → Prop
  | [] => True
  | a :: acts => Clear w a ∧ ClearRun release (step release w a) acts

instance (receipts : List (Receipt α)) (x : Sent α) : Decidable (ClearNext receipts x) :=
  inferInstanceAs (Decidable (_ ∧ _))

instance (w : Link α) : (a : Act α) → Decidable (Clear w a)
  | .receive => inferInstanceAs (Decidable (∀ x ∈ w.inFlight.head?, _))
  | .push _ _ | .restart | .lose _ => .isTrue trivial

instance decidableClearRun (release : Nat) (w : Link α) :
    (acts : List (Act α)) → Decidable (ClearRun release w acts)
  | [] => .isTrue trivial
  | a :: acts =>
    have := decidableClearRun release (step release w a) acts
    inferInstanceAs (Decidable (_ ∧ _))

end Claim

section Numbers

theorem ofNat_eq_iff (i j : Nat) : UInt32.ofNat i = UInt32.ofNat j ↔ i % 2 ^ 32 = j % 2 ^ 32 := by
  rw [← UInt32.toNat_inj,UInt32.toNat_ofNat',UInt32.toNat_ofNat']

theorem ofNat_eq_zero (i : Nat) : UInt32.ofNat i = 0 ↔ i % 2 ^ 32 = 0 := by
  rw [← UInt32.toNat_inj,UInt32.toNat_ofNat']
  rfl

theorem toInt32_eq_zero {a : UInt32} (h : a.toInt32 = 0) : a = 0 := by
  have h1 : a.toInt32.toUInt32 = (0 : Int32).toUInt32 := by rw [h]
  exact h1

theorem missedEvent_eq_zero {a b : UInt32} (h : missedEvent a b = 0) : a = b := by
  unfold missedEvent at h
  split at h
  · have h0 := toInt32_eq_zero h
    grind
  · have hn : -(-(b - a).toInt32) = -0 := by rw [h]
    rw [Int32.neg_neg] at hn
    have h0 := toInt32_eq_zero hn
    grind

/-- The difference of two numbers of one life, also when the counter has gone round in between. -/
theorem missedEvent_gap (i d : Nat) :
    missedEvent (UInt32.ofNat (i + d)) (UInt32.ofNat i) = Int32.ofNat d := by
  have hsub : UInt32.ofNat (i + d) - UInt32.ofNat i = UInt32.ofNat d := by
    rw [UInt32.ofNat_add]
    grind
  have hneg : UInt32.ofNat i - UInt32.ofNat (i + d) = -UInt32.ofNat d := by
    rw [UInt32.ofNat_add]
    grind
  unfold missedEvent
  rw [hsub,hneg,UInt32.toInt32_neg,Int32.neg_neg,ite_self,UInt32.toInt32_ofNat']

end Numbers

section Received
variable {cb : EventCallBack α} {m : Message α}

/-- The client after a message that its callback is called for. -/
def heard (cb : EventCallBack α) (m : Message α) (missed : Bool) : EventCallBack α :=
  { cb with
    ctr := m.ctr
    discardedEvent := false
    received := cb.received ++
      ((if missed then [.missedEvents] else []) ++ [.data m.format m.value]) }

theorem pushZmqEvent_gap {i d : Nat} (h2 : 2 ≤ d) (hd : d < 2 ^ 31) (hcb : cb.ctr = UInt32.ofNat i)
    (hm : m.ctr = UInt32.ofNat (i + d)) (hi : i % 2 ^ 32 ≠ 0) :
    pushZmqEvent cb m = heard cb m true := by
  have hne : ¬ cb.ctr = 0 := by
    rw [hcb,ofNat_eq_zero]
    exact hi
  have hctr : (if 1 < m.ctr ∧ cb.ctr = 0 then m.ctr - 1 else cb.ctr) = cb.ctr :=
    if_neg (fun h => hne h.2)
  have hmissed : 2 ≤ missedEvent m.ctr cb.ctr := by
    rw [hcb,hm,missedEvent_gap,Int32.le_iff_toInt_le,Int32.toInt_ofNat_of_lt hd]
    change (2 : Int) ≤ d
    exact_mod_cast h2
  unfold pushZmqEvent
  simp only [hctr]
  rw [if_pos hmissed]
  rfl

/-- Any number but the last one is delivered, and the last one too behind its second copy. -/
theorem pushZmqEvent_other (h : cb.discardedEvent = true ∨ cb.ctr ≠ m.ctr) :
    ∃ missed, pushZmqEvent cb m = heard cb m missed := by
  unfold pushZmqEvent
  generalize hc : (if 1 < m.ctr ∧ cb.ctr = 0 then m.ctr - 1 else cb.ctr) = ctr
  dsimp only
  by_cases h2 : 2 ≤ missedEvent m.ctr ctr
  · rw [if_pos h2]
    exact ⟨true,rfl⟩
  · have hz : ¬ (missedEvent m.ctr ctr = 0 ∧ cb.discardedEvent = false) := by
      intro ⟨hz,hd⟩
      rcases h with h | h
      · rw [h] at hd
        cases hd
      · have he := missedEvent_eq_zero hz
        by_cases hfirst : 1 < m.ctr ∧ cb.ctr = 0
        · rw [if_pos hfirst] at hc
          rw [← hc,missedEvent_next] at hz
          cases hz
        · rw [if_neg hfirst] at hc
          exact h (hc.trans he.symm)
    rw [if_neg h2,if_neg hz]
    exact ⟨false,rfl⟩

theorem received_heard {w : Link α} {x : Sent α} {missed : Bool} {rest : List (Sent α)}
    (h : pushZmqEvent w.client x.message = heard w.client x.message missed) :
    received w x rest =
      { w with
        inFlight := rest
        client := heard w.client x.message missed
        receipts := w.receipts ++ [⟨x,(if missed then [.missedEvents] else []) ++
          [.data x.message.format x.message.value]⟩] } := by
  unfold received
  rw [h]
  simp only [heard,List.drop_left]

theorem received_again {w : Link α} {x : Sent α} {rest : List (Sent α)}
    (h : w.client.ctr = x.message.ctr) (hd : w.client.discardedEvent = false) :
    received w x rest =
      { w with
        inFlight := rest
        client := { w.client with discardedEvent := true }
        receipts := w.receipts ++ [⟨x,[]⟩] } := by
  unfold received
  rw [pushZmqEvent_again h hd]
  simp only [List.drop_length]

end Received

section Order

/-- Pushes in the order they were made in. -/
def Before (a b : Nat × Nat) : Prop := a.1 < b.1 ∨ a.1 = b.1 ∧ a.2 ≤ b.2

theorem before_antisymm {a b : Nat × Nat} (h : Before a b) (h' : Before b a) : a = b := by
  unfold Before at h h'
  apply Prod.ext <;> omega

theorem before_trans {a b c : Nat × Nat} (h : Before a b) (h' : Before b c) : Before a c := by
  unfold Before at h h' ⊢
  omega

/-- What is received and on its way: in order, a push twice at most, and no push of the future. -/
structure InOrder (last : Nat × Nat) (keys : List (Nat × Nat)) : Prop where
  sorted : keys.Pairwise Before
  twice : ∀ k, keys.count k ≤ 2
  past : ∀ k ∈ keys, Before k last

theorem InOrder.sublist {last : Nat × Nat} {l l' : List (Nat × Nat)} (h : InOrder last l)
    (hs : l'.Sublist l) : InOrder last l' where
  sorted := h.sorted.sublist hs
  twice k := Nat.le_trans (hs.count_le k) (h.twice k)
  past k hk := h.past k (hs.subset hk)

theorem InOrder.later {last last' : Nat × Nat} {l : List (Nat × Nat)} (h : InOrder last l)
    (hl : Before last last') : InOrder last' l where
  sorted := h.sorted
  twice := h.twice
  past k hk := before_trans (h.past k hk) hl

theorem InOrder.push {life pushed n : Nat} {l : List (Nat × Nat)} (h : InOrder (life,pushed) l)
    (hn : n ≤ 2) : InOrder (life,pushed + 1) (l ++ List.replicate n (life,pushed + 1)) where
  sorted := by
    apply List.pairwise_append.mpr
    refine ⟨h.sorted,?_,?_⟩
    · apply List.pairwise_replicate.mpr
      exact .inr (.inr ⟨rfl,Nat.le_refl _⟩)
    · intro a ha b hb
      rw [List.eq_of_mem_replicate hb]
      have hp := h.past a ha
      unfold Before at hp ⊢
      dsimp only at hp ⊢
      omega
  twice k := by
    rw [List.count_append]
    by_cases hk : k = (life,pushed + 1)
    · have h0 : l.count k = 0 := by
        apply List.count_eq_zero.mpr
        intro hm
        have hp := h.past k hm
        rw [hk] at hp
        unfold Before at hp
        dsimp only at hp
        omega
      rw [h0,hk,List.count_replicate_self]
      omega
    · rw [List.count_eq_zero.mpr (fun hm => hk (List.eq_of_mem_replicate hm))]
      exact h.twice k
  past k hk := by
    rcases List.mem_append.mp hk with hk | hk
    · have hp := h.past k hk
      unfold Before at hp ⊢
      dsimp only at hp ⊢
      omega
    · rw [List.eq_of_mem_replicate hk]
      exact .inr ⟨rfl,Nat.le_refl _⟩

end Order

section Runs
variable {release : Nat} {w : Link α}

def keys (w : Link α) : List (Nat × Nat) :=
  w.receipts.map Receipt.key ++ w.inFlight.map Sent.key

/-- What the client knows of the last message it received. -/
def Heard (w : Link α) : Prop :=
  match w.receipts.getLast? with
  | none => w.client.ctr = 0 ∧ w.client.discardedEvent = false
  | some p => w.client.ctr = UInt32.ofNat p.index ∧
      (w.client.discardedEvent = true ↔ p.key ∈ w.receipts.dropLast.map Receipt.key)

structure Inv (release : Nat) (w : Link α) : Prop where
  clientLib : w.supplier.clientLib = [release]
  eventCptr : w.supplier.eventCptr = some (UInt32.ofNat (w.pushed + 1))
  numbered : ∀ x ∈ w.inFlight, x.message.ctr = UInt32.ofNat x.index
  inOrder : InOrder (w.life,w.pushed) (keys w)
  heard : Heard w
  right : Right w.receipts

theorem inv_start : Inv release (start release : Link α) where
  clientLib := rfl
  eventCptr := rfl
  numbered x hx := by cases hx
  inOrder := ⟨.nil,fun k => Nat.zero_le _,fun k hk => by cases hk⟩
  heard := ⟨rfl,rfl⟩
  right prev r post h := by
    change [] = _ at h
    simp at h

theorem copies_eq (twice : Bool) (x : Sent α) :
    copies twice x = List.replicate (if twice then 2 else 1) x := by
  cases twice <;> rfl

theorem inv_push (h : Inv release w) (value : α) (twice : Bool) :
    Inv release (step release w (.push value twice)) := by
  have hs : pushEventLoop value w.supplier =
      ([⟨topicOf release,UInt32.ofNat (w.pushed + 1),formatOf release,value⟩],
        { w.supplier with eventCptr := some (UInt32.ofNat (w.pushed + 1) + 1) }) := by
    have hl := pushLoop_true value release [] (UInt32.ofNat (w.pushed + 1))
    rw [← h.clientLib,← h.eventCptr] at hl
    unfold pushEventLoop
    rw [hl]
    rfl
  unfold step
  dsimp only
  rw [hs]
  simp only [List.flatMap_cons,List.flatMap_nil,List.append_nil,copies_eq]
  constructor
  · exact h.clientLib
  · change some (UInt32.ofNat (w.pushed + 1) + 1) = _
    rw [UInt32.ofNat_add (w.pushed + 1)]
    rfl
  · intro x hx
    rcases List.mem_append.mp hx with hx | hx
    · exact h.numbered x hx
    · rw [List.eq_of_mem_replicate hx]
  · have hk := h.inOrder.push (n := if twice then 2 else 1) (by cases twice <;> simp)
    unfold keys at hk ⊢
    rw [List.map_append,List.map_replicate,← List.append_assoc]
    exact hk
  · exact h.heard
  · exact h.right

theorem inv_restart (h : Inv release w) : Inv release (step release w .restart) where
  clientLib := rfl
  eventCptr := rfl
  numbered := h.numbered
  inOrder := h.inOrder.later (.inl (Nat.lt_succ_self _))
  heard := h.heard
  right := h.right

theorem inv_lose (h : Inv release w) (n : Nat) : Inv release (step release w (.lose n)) where
  clientLib := h.clientLib
  eventCptr := h.eventCptr
  numbered x hx := h.numbered x (List.mem_of_mem_eraseIdx hx)
  inOrder := by
    apply h.inOrder.sublist
    exact (List.Sublist.refl _).append ((List.eraseIdx_sublist w.inFlight n).map _)
  heard := h.heard
  right := h.right

/-- The message that is received is behind all others, and the second of its push at most. -/
theorem keys_receive {x : Sent α} {rest : List (Sent α)} {receipts : List (Receipt α)}
    {r : Receipt α} (hr : r.toSent = x) (h : w.inFlight = x :: rest)
    (hw : receipts = w.receipts ++ [r]) :
    receipts.map Receipt.key ++ rest.map Sent.key = keys w := by
  unfold keys
  rw [h,hw,List.map_append,List.map_cons,List.map_nil,List.map_cons,← hr,List.append_assoc]
  rfl

theorem last_before (h : Inv release w) {x : Sent α} {rest : List (Sent α)}
    (hf : w.inFlight = x :: rest) {k : Nat × Nat} (hk : k ∈ w.receipts.map Receipt.key) :
    Before k x.key := by
  have hs := h.inOrder.sorted
  unfold keys at hs
  rw [hf] at hs
  exact (List.pairwise_append.mp hs).2.2 k hk x.key List.mem_cons_self

/-- The next message is judged rightly, and the client knows it. -/
def Receives (w : Link α) (x : Sent α) (rest : List (Sent α)) : Prop :=
  Heard (received w x rest) ∧
  ∃ calls, (received w x rest).receipts = w.receipts ++ [⟨x,calls⟩] ∧ Judged w.receipts ⟨x,calls⟩

theorem receives_heard {x : Sent α} {rest : List (Sent α)} (missed : Bool)
    (hx : x.message.ctr = UInt32.ofNat x.index) (hnew : x.key ∉ w.receipts.map Receipt.key)
    (hp : pushZmqEvent w.client x.message = heard w.client x.message missed)
    (hm : ∀ p, w.receipts.getLast? = some p → p.life = x.life →
      (missed = true ↔ p.index + 1 < x.index)) :
    Receives w x rest := by
  unfold Receives
  rw [received_heard hp]
  refine ⟨?_,_,rfl,?_⟩
  · unfold Heard
    rw [List.getLast?_concat,List.dropLast_concat]
    exact ⟨hx,iff_of_false (by simp [heard]) hnew⟩
  · exact judged_new missed hnew rfl hm

theorem receives_again {x : Sent α} {rest : List (Sent α)}
    (hx : x.message.ctr = UInt32.ofNat x.index) (hold : x.key ∈ w.receipts.map Receipt.key)
    (hc : w.client.ctr = x.message.ctr) (hd : w.client.discardedEvent = false) :
    Receives w x rest := by
  unfold Receives
  rw [received_again hc hd]
  refine ⟨?_,_,rfl,?_⟩
  · unfold Heard
    rw [List.getLast?_concat,List.dropLast_concat]
    exact ⟨hc.trans hx,iff_of_true rfl hold⟩
  · exact judged_old hold rfl

/-- The message behind the last one: its second copy, a later push of its life, or one of a later
life. -/
theorem behind_last (h : Inv release w) {x : Sent α} {rest : List (Sent α)}
    (hf : w.inFlight = x :: rest) {p : Receipt α} (hl : w.receipts.getLast? = some p) :
    (x.key = p.key ∧ p.key ∉ w.receipts.dropLast.map Receipt.key) ∨
    (x.key ∉ w.receipts.map Receipt.key ∧
      (p.life = x.life ∧ p.index < x.index ∨ p.life < x.life)) := by
  obtain ⟨init,hinit⟩ := List.getLast?_eq_some_iff.mp hl
  have hkeys : w.receipts.map Receipt.key = init.map Receipt.key ++ [p.key] := by
    rw [hinit,List.map_append]
    rfl
  have hp : Before p.key x.key := by
    apply last_before h hf
    rw [hkeys]
    exact List.mem_append_right _ List.mem_cons_self
  by_cases he : x.key = p.key
  · refine .inl ⟨he,?_⟩
    intro hm
    have h2 := h.inOrder.twice p.key
    rw [hinit,List.dropLast_concat] at hm
    have h1 := List.count_pos_iff.mpr hm
    unfold keys at h2
    rw [hkeys,hf,List.map_cons,he] at h2
    simp only [List.count_append,List.count_cons_self,List.count_nil] at h2
    omega
  · refine .inr ⟨?_,?_⟩
    · intro hm
      rw [hkeys] at hm
      rcases List.mem_append.mp hm with hm | hm
      · have hs := h.inOrder.sorted
        unfold keys at hs
        rw [hkeys] at hs
        have hb := (List.pairwise_append.mp (List.pairwise_append.mp hs).1).2.2 x.key hm p.key
          List.mem_cons_self
        exact he (before_antisymm hb hp)
      · exact he (List.mem_singleton.mp hm)
    · have hne : ¬ (x.life = p.life ∧ x.index = p.index) := fun ⟨h1,h2⟩ => he (Prod.ext h1 h2)
      have hb : p.life < x.life ∨ p.life = x.life ∧ p.index ≤ x.index := hp
      omega

theorem receives_clear (h : Inv release w) {x : Sent α} {rest : List (Sent α)}
    (hf : w.inFlight = x :: rest) (hc : Clear w .receive) : Receives w x rest := by
  have hx : x.message.ctr = UInt32.ofNat x.index := by
    apply h.numbered
    rw [hf]
    exact List.mem_cons_self
  have hc := hc x (by rw [hf]; rfl)
  have hh := h.heard
  unfold Heard at hh
  cases hl : w.receipts.getLast? with
  | none =>
    rw [hl] at hh
    have hnil : w.receipts = [] := List.getLast?_eq_none_iff.mp hl
    apply receives_heard false hx
    · rw [hnil]
      exact List.not_mem_nil
    · apply pushZmqEvent_next
      refine .inr ⟨hh.1,?_⟩
      rw [hx,ne_eq,ofNat_eq_zero]
      exact hc.1 hnil
    · intro p hp
      rw [hl] at hp
      cases hp
  | some p =>
    rw [hl] at hh
    obtain ⟨hctr,hdis⟩ := hh
    obtain ⟨hsame,hnext⟩ := hc.2 p hl
    rcases behind_last h hf hl with ⟨he,hn⟩ | ⟨hnew,hlater⟩
    · apply receives_again hx
      · rw [he]
        exact List.mem_map_of_mem (List.mem_of_getLast? hl)
      · have hi : x.index = p.index := congrArg Prod.snd he
        rw [hctr,hx,hi]
      · rw [← Bool.not_eq_true,hdis]
        exact hn
    · rcases hlater with ⟨hlife,hi⟩ | hlife
      · obtain ⟨hlt,hz⟩ := hsame hlife
        by_cases hone : x.index = p.index + 1
        · apply receives_heard false hx hnew
          · apply pushZmqEvent_next
            refine .inl ?_
            rw [hctr,hx,hone,UInt32.ofNat_add]
            grind
          · intro q hq hql
            rw [hl] at hq
            cases hq
            rw [hone]
            simp
        · apply receives_heard true hx hnew
          · have hd : x.index = p.index + (x.index - p.index) := by omega
            apply pushZmqEvent_gap (i := p.index) (d := x.index - p.index)
            · omega
            · omega
            · exact hctr
            · rw [hx,← hd]
            · intro h0
              have := hz h0
              omega
          · intro q hq hql
            rw [hl] at hq
            cases hq
            refine iff_of_true rfl ?_
            omega
      · obtain ⟨missed,hm⟩ : ∃ missed, pushZmqEvent w.client x.message =
            heard w.client x.message missed := by
          apply pushZmqEvent_other
          rcases hnext hlife with hsec | hne
          · exact .inl (hdis.mpr hsec)
          · refine .inr ?_
            rw [hctr,hx,ne_eq,ofNat_eq_iff]
            exact fun he => hne he.symm
        apply receives_heard missed hx hnew hm
        intro q hq hql
        rw [hl] at hq
        cases hq
        omega

theorem inv_receive (h : Inv release w) (hc : Clear w .receive) :
    Inv release (step release w .receive) := by
  cases hf : w.inFlight with
  | nil =>
    have hs : step release w .receive = w := by
      unfold step
      simp only [hf]
    rwa [hs]
  | cons x rest =>
    have hs : step release w .receive = received w x rest := by
      unfold step
      simp only [hf]
    obtain ⟨hheard,calls,hreceipts,hjudged⟩ := receives_clear h hf hc
    rw [hs]
    constructor
    · exact h.clientLib
    · exact h.eventCptr
    · intro y hy
      apply h.numbered
      rw [hf]
      exact List.mem_cons_of_mem x hy
    · have hk := keys_receive rfl hf hreceipts
      have ho := h.inOrder
      rw [← hk] at ho
      exact ho
    · exact hheard
    · rw [hreceipts]
      exact right_snoc h.right hjudged

theorem inv_step (h : Inv release w) (a : Act α) (hc : Clear w a) :
    Inv release (step release w a) := by
  cases a with
  | push value twice => exact inv_push h value twice
  | restart => exact inv_restart h
  | lose n => exact inv_lose h n
  | receive => exact inv_receive h hc

theorem inv_run (acts : List (Act α)) (h : Inv release w) (hc : ClearRun release w acts) :
    Inv release (run release w acts) := by
  induction acts generalizing w with
  | nil => exact h
  | cons a acts ih => exact ih (inv_step h a hc.1) hc.2

/-- Each push that is received is delivered once, its second copy is dropped, and lost pushes
between two of one life are reported. -/
theorem missed_events_exact (release : Nat) (acts : List (Act α))
    (h : ClearRun release (start release) acts) :
    Right (run release (start release) acts).receipts :=
  (inv_run acts inv_start h).right

/-- A push sent twice, two lost pushes and a restart. -/
def lossy : List (Act Nat) :=
  [.push 10 true,.receive,.receive,.push 11 false,.push 12 false,.push 13 false,.lose 0,.lose 0,
    .receive,.restart,.push 14 false,.receive]

theorem lossy_reported :
    (run 6 (start 6) lossy).receipts.map Receipt.calls =
      [[.data .attributeValue5 10],[],[.missedEvents,.data .attributeValue5 13],
        [.data .attributeValue5 14]] ∧
    Right (run 6 (start 6) lossy).receipts :=
  ⟨by decide,missed_events_exact 6 lossy (by decide)⟩

/-- A restart with no push lost. -/
def restarted : List (Act Nat) := [.push 10 false,.receive,.restart,.push 11 false,.receive]

/-- The first push of the new life has the number of the last one received, and is taken for its
second copy. -/
theorem first_push_dropped : ¬ Right (run 6 (start 6) restarted).receipts := by
  intro h
  have hj := h [⟨⟨0,1,⟨.idl5,1,.attributeValue5,10⟩⟩,[.data .attributeValue5 10]⟩]
    ⟨⟨1,1,⟨.idl5,1,.attributeValue5,11⟩⟩,[]⟩ [] (by decide)
  unfold Judged at hj
  rw [if_neg (by decide)] at hj
  obtain ⟨missed,hm,-⟩ := hj
  cases missed <;> cases hm

end Runs

end CppTango.Event.Missed
