import CppTango.Event.Supplier
import Mathlib.Data.List.Nodup
import Mathlib.Data.List.Perm.Subperm

namespace CppTango.Event

section Accepted
variable {α : Type} {cb : EventCallBack α} {m : Message α}

theorem missedEvent_next (c : UInt32) : missedEvent c (c - 1) = 1 := by
  unfold missedEvent
  have h1 : c - (c - 1) = 1 := by grind
  have h2 : c - 1 - c = -1 := by grind
  rw [h1,h2]
  split <;> rfl

theorem missedEvent_same (c : UInt32) : missedEvent c c = 0 := by
  unfold missedEvent
  rw [if_pos (UInt32.le_refl c),UInt32.sub_self]
  rfl

/-- A client takes the next counter, or any but zero when it has had no event. -/
def Follows (cb : EventCallBack α) (ctr : UInt32) : Prop :=
  cb.ctr = ctr - 1 ∨ (cb.ctr = 0 ∧ ctr ≠ 0)

theorem pushZmqEvent_next (h : Follows cb m.ctr) : pushZmqEvent cb m =
    { cb with ctr := m.ctr, discardedEvent := false,
              received := cb.received ++ [.data m.format m.value] } := by
  have hctr : (if 1 < m.ctr ∧ cb.ctr = 0 then m.ctr - 1 else cb.ctr) = m.ctr - 1 := by
    split
    · rfl
    next hn =>
      rcases h with h | ⟨h0,hne⟩
      · exact h
      · have h1 : m.ctr = 1 := by
          have hle : ¬ 1 < m.ctr := fun hlt => hn ⟨hlt,h0⟩
          rw [UInt32.lt_iff_toNat_lt] at hle
          have hz : m.ctr.toNat ≠ 0 := fun hz => hne (UInt32.toNat_inj.mp hz)
          apply UInt32.toNat_inj.mp
          simp only [UInt32.toNat_one] at hle ⊢
          omega
        rw [h0,h1]
        rfl
  unfold pushZmqEvent
  simp only [hctr,missedEvent_next]
  rfl

theorem pushZmqEvent_again (h : cb.ctr = m.ctr) (hd : cb.discardedEvent = false) :
    pushZmqEvent cb m = { cb with discardedEvent := true } := by
  have hctr : (if 1 < m.ctr ∧ cb.ctr = 0 then m.ctr - 1 else cb.ctr) = cb.ctr := by
    apply if_neg
    rintro ⟨hlt,hz⟩
    rw [← h,hz] at hlt
    exact absurd hlt (by decide)
  have hm : missedEvent m.ctr cb.ctr = 0 := by
    rw [h,missedEvent_same]
  unfold pushZmqEvent
  simp only [hctr,hm,hd]
  rfl

end Accepted

section Push
variable {α : Type}

theorem pushLoop_false (v : α) (libs : List Nat) (c : Option UInt32) :
    pushLoop v false libs c =
      (libs.map (fun r => ⟨topicOf r,c.getD 0,formatOf r,v⟩),c) := by
  induction libs with
  | nil => rfl
  | cons r libs ih =>
    rw [pushLoop]
    simp only [Bool.false_eq_true,if_false,ih,List.map_cons]

theorem pushLoop_true (v : α) (h : Nat) (libs : List Nat) (n : UInt32) :
    pushLoop v true (h :: libs) (some n) =
      (⟨topicOf h,n,formatOf h,v⟩ :: libs.map (fun r => ⟨topicOf r,n + 1,formatOf r,v⟩),
        some (n + 1)) := by
  rw [pushLoop]
  simp only [if_true,Option.map_some,pushLoop_false]
  rfl

/-- The releases of the clients a run is about. -/
def Supported (r : Nat) : Prop := r = 4 ∨ r = 5 ∨ r = 6

def Topic.format : Topic → Format
  | .plain => .attributeValue4
  | .idl5 => .attributeValue5

theorem formatOf_topic {r : Nat} (h : Supported r) : formatOf r = (topicOf r).format := by
  rcases h with rfl | rfl | rfl <;> rfl

/-- The releases of a list without a second entry beside a newer one at its head. -/
structure Listed (libs : List Nat) : Prop where
  supported : ∀ r ∈ libs, Supported r
  nodup : libs.Nodup
  alone : ∀ h, libs.head? = some h → ∀ r ∈ libs, topicOf r = topicOf h → r = h

def heads (libs : List Nat) (t : Topic) : Prop := libs.head?.map topicOf = some t

instance (libs : List Nat) (t : Topic) : Decidable (heads libs t) := by
  unfold heads
  infer_instance

/-- The counter a topic is sent with. -/
def sentCtr (libs : List Nat) (n : UInt32) (t : Topic) : UInt32 := if heads libs t then n else n + 1

theorem sentCtr_congr {libs libs' : List Nat} (h : libs.head? = libs'.head?) (n : UInt32) (t : Topic) :
    sentCtr libs n t = sentCtr libs' n t := by
  have hh : heads libs t ↔ heads libs' t := by
    unfold heads
    rw [h]
  unfold sentCtr
  simp only [hh]

/-- The releases of one topic behind the head: one or two. -/
theorem behind_head {h : Nat} {rest : List Nat} (hl : Listed (h :: rest)) {t : Topic}
    (hn : topicOf h ≠ t) (hm : ∃ r ∈ h :: rest, topicOf r = t) :
    ∃ r more, rest.filter (fun r => topicOf r = t) = r :: more ∧ topicOf r = t ∧ Supported r ∧
      more.length ≤ 1 := by
  have hmem : ∀ r ∈ rest.filter (fun r => topicOf r = t), topicOf r = t ∧ Supported r := by
    intro r hr
    obtain ⟨hr,ht⟩ := List.mem_filter.mp hr
    exact ⟨of_decide_eq_true ht,hl.supported r (List.mem_cons_of_mem _ hr)⟩
  have hnd : (rest.filter (fun r => topicOf r = t)).Nodup :=
    (List.nodup_cons.mp hl.nodup).2.filter _
  have hlen : (rest.filter (fun r => topicOf r = t)).length ≤ 2 := by
    cases t with
    | plain =>
      have hsub : rest.filter (fun r => topicOf r = .plain) ⊆ [4] := by
        intro r hr
        obtain ⟨ht,hs⟩ := hmem r hr
        rcases hs with rfl | rfl | rfl
        · simp
        · cases ht
        · cases ht
      exact Nat.le_succ_of_le (List.Nodup.subperm hnd hsub).length_le
    | idl5 =>
      have hsub : rest.filter (fun r => topicOf r = .idl5) ⊆ [5,6] := by
        intro r hr
        obtain ⟨ht,hs⟩ := hmem r hr
        rcases hs with rfl | rfl | rfl
        · cases ht
        · simp
        · simp
      exact (List.Nodup.subperm hnd hsub).length_le
  obtain ⟨r,hr,ht⟩ := hm
  have hin : r ∈ rest.filter (fun r => topicOf r = t) := by
    rcases List.mem_cons.mp hr with rfl | hr
    · exact absurd ht hn
    · exact List.mem_filter.mpr ⟨hr,decide_eq_true ht⟩
  cases hf : rest.filter (fun r => topicOf r = t) with
  | nil =>
    rw [hf] at hin
    cases hin
  | cons r more =>
    rw [hf] at hmem hlen
    obtain ⟨ht,hs⟩ := hmem r List.mem_cons_self
    exact ⟨r,more,rfl,ht,hs,Nat.le_of_succ_le_succ hlen⟩

/-- A push reaches a client once, when its counter is the one the client waits for. -/
theorem deliver_once {libs : List Nat} (hl : Listed libs) {cb : EventCallBack α} {n : UInt32}
    (hm : ∃ r ∈ libs, topicOf r = cb.topic) (hf : Follows cb (sentCtr libs n cb.topic)) (v : α) :
    ∃ disc, deliver (pushLoop v true libs (some n)).1 cb =
      { cb with ctr := sentCtr libs n cb.topic, discardedEvent := disc,
                received := cb.received ++ [.data cb.topic.format v] } := by
  cases libs with
  | nil =>
    obtain ⟨r,hr,-⟩ := hm
    cases hr
  | cons h rest =>
    rw [pushLoop_true]
    unfold deliver
    dsimp only
    by_cases ht : topicOf h = cb.topic
    · have hheads : heads (h :: rest) cb.topic := congrArg some ht
      have hnil : (rest.map (fun r => (⟨topicOf r,n + 1,formatOf r,v⟩ : Message α))).filter
          (fun m => m.topic = cb.topic) = [] := by
        apply List.filter_eq_nil_iff.mpr
        intro m hm' hd
        obtain ⟨r,hr,rfl⟩ := List.mem_map.mp hm'
        have he := hl.alone h rfl r (List.mem_cons_of_mem _ hr) ((of_decide_eq_true hd).trans ht.symm)
        exact (List.nodup_cons.mp hl.nodup).1 (he ▸ hr)
      rw [sentCtr,if_pos hheads] at hf ⊢
      rw [List.filter_cons_of_pos (by simpa using ht),hnil]
      refine ⟨false,?_⟩
      rw [List.foldl_cons,List.foldl_nil,pushZmqEvent_next hf,
        formatOf_topic (hl.supported h List.mem_cons_self),ht]
    · have hheads : ¬ heads (h :: rest) cb.topic := fun he => ht (Option.some.inj he)
      rw [sentCtr,if_neg hheads] at hf ⊢
      obtain ⟨r,more,hr,hrt,hrs,hlen⟩ := behind_head hl ht hm
      rw [List.filter_cons_of_neg (by simpa using ht),List.filter_map]
      change ∃ disc, (List.map _ (rest.filter (fun r => topicOf r = cb.topic))).foldl _ _ = _
      rw [hr,List.map_cons,List.foldl_cons,pushZmqEvent_next hf,formatOf_topic hrs,hrt]
      match more,hlen with
      | [],_ => exact ⟨false,rfl⟩
      | [q],_ =>
        refine ⟨true,?_⟩
        rw [List.map_cons,List.map_nil,List.foldl_cons,List.foldl_nil,pushZmqEvent_again rfl rfl]

end Push

section Lists
variable {libs : List Nat} {r : Nat}

def Supplier.subscriptionOf (s : Supplier) : Topic → Int
  | .plain => s.subscription4
  | .idl5 => s.subscription5

/-- A release comes into the list without being the second of one topic beside the head. -/
def Joins (libs : List Nat) (r : Nat) : Prop :=
  r ∈ libs ∨ ∀ h, libs.head? = some h → topicOf h ≠ topicOf r

theorem setClientLib_eq (libs : List Nat) (r : Nat) :
    setClientLib r libs = if r ∈ libs then libs else libs ++ [r] := by
  unfold setClientLib
  by_cases h : r ∈ libs
  · rw [if_pos h,if_neg (fun h0 => List.count_eq_zero.mp h0 h)]
  · rw [if_neg h,if_pos (List.count_eq_zero.mpr h)]

theorem mem_setClientLib {x : Nat} : x ∈ setClientLib r libs ↔ x ∈ libs ∨ x = r := by
  rw [setClientLib_eq]
  split
  next h =>
    constructor
    · exact Or.inl
    · rintro (hx | rfl)
      · exact hx
      · exact h
  next => simp

theorem head_setClientLib (h : libs ≠ []) : (setClientLib r libs).head? = libs.head? := by
  rw [setClientLib_eq]
  split
  · rfl
  · exact List.head?_append_of_ne_nil _ h

theorem listed_setClientLib (hl : Listed libs) (hr : Supported r) (hj : Joins libs r) :
    Listed (setClientLib r libs) := by
  by_cases hm : r ∈ libs
  · rw [setClientLib_eq,if_pos hm]
    exact hl
  · have hj := hj.resolve_left hm
    refine ⟨?_,?_,?_⟩
    · intro x hx
      rcases mem_setClientLib.mp hx with hx | rfl
      · exact hl.supported x hx
      · exact hr
    · rw [setClientLib_eq,if_neg hm]
      exact List.nodup_append.mpr ⟨hl.nodup,List.nodup_singleton r,by
        intro a ha b hb he
        rw [List.mem_singleton] at hb
        exact hm (hb ▸ he ▸ ha)⟩
    · intro h hh x hx hxh
      cases libs with
      | nil =>
        rw [setClientLib_eq,if_neg hm] at hh hx
        cases hh
        exact List.mem_singleton.mp hx
      | cons a rest =>
        rw [head_setClientLib (List.cons_ne_nil a rest)] at hh
        rcases mem_setClientLib.mp hx with hx | rfl
        · exact hl.alone h hh x hx hxh
        · exact absurd hxh.symm (hj h hh)

theorem erase_loop (p : Nat → Prop) [DecidablePred p] (l libs : List Nat) (hn : l.Nodup) :
    libs.foldl (fun l r => if p r then l.erase r else l) l =
      l.filter (fun x => ¬ (p x ∧ x ∈ libs)) := by
  induction libs generalizing l with
  | nil => simp
  | cons r libs ih =>
    rw [List.foldl_cons]
    by_cases hp : p r
    · rw [if_pos hp,ih _ (hn.erase r),hn.erase_eq_filter,List.filter_filter]
      apply List.filter_congr
      intro x _
      by_cases hx : x = r
      · simp [hx,hp]
      · simp [hx]
    · rw [if_neg hp,ih _ hn]
      apply List.filter_congr
      intro x _
      by_cases hx : x = r
      · simp [hx,hp]
      · simp [hx]

/-- The releases that stay are those with a request in time. -/
theorem expire_libs {s : Supplier} (hl : Listed s.clientLib) (now : Int) :
    (expire now s).clientLib =
      s.clientLib.filter (fun r => now - s.subscriptionOf (topicOf r) < resubscribePeriod) := by
  have hone : ∀ (libs l : List Nat), (∀ r ∈ libs, Supported r) → libs.foldl (expireOne now s) l =
      libs.foldl (fun l r => if resubscribePeriod ≤ now - s.subscriptionOf (topicOf r) then l.erase r
        else l) l := by
    intro libs
    induction libs with
    | nil => exact fun l _ => rfl
    | cons r libs ih =>
      intro l hs
      rw [List.foldl_cons,List.foldl_cons,ih _ (fun x hx => hs x (List.mem_cons_of_mem _ hx))]
      rcases hs r List.mem_cons_self with rfl | rfl | rfl <;> rfl
  unfold expire
  dsimp only
  rw [hone _ _ hl.supported,
    erase_loop (fun r => resubscribePeriod ≤ now - s.subscriptionOf (topicOf r)) _ _ hl.nodup]
  apply List.filter_congr
  intro x hx
  simp [hx]

theorem listed_filter (hl : Listed libs) (p : Nat → Bool)
    (hh : (libs.filter p).head? = libs.head? ∨ ¬ (5 ∈ libs.filter p ∧ 6 ∈ libs.filter p)) :
    Listed (libs.filter p) := by
  refine ⟨fun r hr => hl.supported r (List.mem_filter.mp hr).1,hl.nodup.filter p,?_⟩
  intro h hhead r hr ht
  rcases hh with hh | hh
  · exact hl.alone h (hh ▸ hhead) r (List.mem_filter.mp hr).1 ht
  · have hm : h ∈ libs.filter p := List.mem_of_head? hhead
    rcases hl.supported r (List.mem_filter.mp hr).1 with rfl | rfl | rfl <;>
      rcases hl.supported h (List.mem_filter.mp hm).1 with rfl | rfl | rfl
    · rfl
    · cases ht
    · cases ht
    · cases ht
    · rfl
    · exact absurd ⟨hr,hm⟩ hh
    · cases ht
    · exact absurd ⟨hm,hr⟩ hh
    · rfl

end Lists

end CppTango.Event
