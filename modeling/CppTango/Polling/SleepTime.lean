import CppTango.Polling.WorkList

namespace CppTango.Polling.WorkList

open CppTango.Lib

variable {δ : Type}

section Discard
variable {works : List (WorkItem δ)} {w : WorkItem δ} {after : Int}

/-- What an item needs for its next dates to be later ones. -/
def Repeats (w : WorkItem δ) : Prop := 0 < w.update

theorem repeats_next (w : WorkItem δ) (h : Repeats w) : Repeats w.next ∧ w.wakeUpDate < w.next.wakeUpDate :=
  ⟨h,Int.lt_add_of_pos_right _ h⟩

@[simp] theorem update_iterate (w : WorkItem δ) (k : Nat) : (WorkItem.next^[k] w).update = w.update := by
  induction k with
  | zero => rfl
  | succ k ih => rw [Function.iterate_succ_apply',← ih]; rfl

theorem date_iterate (w : WorkItem δ) (k : Nat) :
    (WorkItem.next^[k] w).wakeUpDate = w.wakeUpDate + k * w.update := by
  induction k with
  | zero => simp
  | succ k ih =>
    rw [Function.iterate_succ_apply']
    show (WorkItem.next^[k] w).wakeUpDate + (WorkItem.next^[k] w).update = _
    rw [ih,update_iterate,Int.natCast_succ,Int.add_mul,Int.one_mul,Int.add_assoc]

/-- An item put back before the first one is taken out goes behind it. -/
theorem discardLoop_eq (n : Nat) (hu : ∀ w ∈ works, Repeats w) :
    discardLoop after n works = postpone WorkItem.wakeUpDate WorkItem.next (after - discardThreshold) n works := by
  induction n generalizing works with
  | zero => rfl
  | succ n ih =>
    cases works with
    | nil => rfl
    | cons w ws =>
      have hw := hu w List.mem_cons_self
      have hback : (insertInList w.next (w :: ws)).tail = enter WorkItem.wakeUpDate w.next ws := by
        rw [insertInList_eq,enter_later (repeats_next w hw).2,List.tail_cons]
      rw [discardLoop,postpone,hback,ih (kept_entered repeats_next hu)]
      exact ite_congr (propext (by omega)) (fun _ => rfl) (fun _ => rfl)

theorem discardLate_eq (hu : ∀ w ∈ works, Repeats w) :
    discardLate after works = postpone WorkItem.wakeUpDate WorkItem.next (after - discardThreshold)
      (behind WorkItem.wakeUpDate (after - discardThreshold) works) works :=
  discardLoop_eq _ hu

theorem discardLoop_inOrder (n : Nat) (ho : InOrder WorkItem.wakeUpDate works) (hu : ∀ w ∈ works, Repeats w) :
    InOrder WorkItem.wakeUpDate (discardLoop after n works) := by
  rw [discardLoop_eq n hu]
  exact (postpone_inOrder repeats_next n ho hu).1

/-- More rounds than that change nothing. -/
theorem discardLoop_ended {n : Nat} (ho : InOrder WorkItem.wakeUpDate works) (hu : ∀ w ∈ works, Repeats w)
    (hn : behind WorkItem.wakeUpDate (after - discardThreshold) works ≤ n) :
    discardLoop after n works = discardLate after works := by
  rw [discardLate_eq hu,discardLoop_eq n hu]
  exact postpone_enough repeats_next ho hu hn (Nat.le_refl _)

/-- The loop is through: the first item is not late, so the others are not. -/
theorem discardLate_done (ho : InOrder WorkItem.wakeUpDate works) (hu : ∀ w ∈ works, Repeats w)
    (hw : w ∈ discardLate after works) : after - discardThreshold ≤ w.wakeUpDate := by
  rw [discardLate_eq hu] at hw
  exact postpone_done repeats_next ho hu (Nat.le_refl _) hw

/-- Some poll of an item is late by the threshold exactly. -/
def OnThreshold (after : Int) (works : List (WorkItem δ)) : Prop :=
  ∃ w ∈ works, ∃ k : Nat, w.wakeUpDate + k * w.update = after - discardThreshold

theorem discardLate_on_threshold (ho : InOrder WorkItem.wakeUpDate works) (hu : ∀ w ∈ works, Repeats w) :
    (∃ w ∈ discardLate after works, w.wakeUpDate = after - discardThreshold) ↔ OnThreshold after works := by
  rw [discardLate_eq hu,postpone_at_bound repeats_next ho hu (Nat.le_refl _)]
  simp only [date_iterate,OnThreshold]

theorem not_onThreshold (ho : InOrder WorkItem.wakeUpDate (w :: works)) (hu : ∀ v ∈ w :: works, Repeats v)
    (hw : after - w.wakeUpDate < discardThreshold) : ¬OnThreshold after (w :: works) := by
  rintro ⟨v,hv,k,hk⟩
  have hle := ho.head_le hv
  have hpos : 0 ≤ (k : Int) * v.update := Int.mul_nonneg (Int.natCast_nonneg k) (Int.le_of_lt (hu v hv))
  omega

/-- The same item, moved on by whole periods of its own; one that is in time is not moved. -/
def CaughtUp (after : Int) (w v : WorkItem δ) : Prop :=
  ∃ k : Nat, v = {w with wakeUpDate := w.wakeUpDate + k * w.update} ∧
    (after - w.wakeUpDate ≤ discardThreshold → k = 0)

theorem iterate_next (w : WorkItem δ) (k : Nat) :
    WorkItem.next^[k] w = {w with wakeUpDate := w.wakeUpDate + k * w.update} := by
  induction k with
  | zero => simp
  | succ k ih =>
    rw [Function.iterate_succ_apply',ih,Int.natCast_succ,Int.add_mul,Int.one_mul,← Int.add_assoc]
    rfl

theorem caughtUp_of_moved {v : WorkItem δ}
    (h : Moved WorkItem.wakeUpDate WorkItem.next (after - discardThreshold) w v) : CaughtUp after w v := by
  obtain ⟨k,rfl,hk⟩ := h
  refine ⟨k,iterate_next w k,fun hw => ?_⟩
  by_contra hn
  have hlate : w.wakeUpDate < after - discardThreshold := hk 0 (Nat.pos_of_ne_zero hn)
  omega

/-- The loop ends after some rounds, with a first item that is not late, and has lost none. -/
theorem discard_ends (after : Int) (hne : works ≠ []) (ho : InOrder WorkItem.wakeUpDate works)
    (hu : ∀ w ∈ works, 0 < w.update) :
    ∃ n, (∀ m, n ≤ m → discardLoop after m works = discardLoop after n works) ∧
      (∃ w ws, discardLoop after n works = w :: ws ∧ after - w.wakeUpDate ≤ discardThreshold) ∧
      ∃ moved, List.Forall₂ (CaughtUp after) works moved ∧ moved.Perm (discardLoop after n works) := by
  refine ⟨behind WorkItem.wakeUpDate (after - discardThreshold) works,fun m hm => ?_,?_,?_⟩
  · exact discardLoop_ended ho hu hm
  · have hleft : discardLate after works ≠ [] := by
      rw [discardLate_eq hu]
      exact postpone_ne_nil _ hne
    obtain ⟨w,ws,hw⟩ := List.exists_cons_of_ne_nil hleft
    refine ⟨w,ws,hw,?_⟩
    have hdone : after - discardThreshold ≤ w.wakeUpDate :=
      discardLate_done ho hu (by rw [hw]; exact List.mem_cons_self)
    omega
  · rw [discardLoop_eq _ hu]
    obtain ⟨moved,hmoved,hperm⟩ := @postpone_perm _ WorkItem.wakeUpDate WorkItem.next
      (after - discardThreshold) works (behind WorkItem.wakeUpDate (after - discardThreshold) works)
    exact ⟨moved,hmoved.imp (fun _ _ => caughtUp_of_moved),hperm⟩

end Discard

section Sleep
variable (cfg : Config δ) {after : Int} {s : PollThread δ}

/-- Absent, or the time that is left to the date of the first item. -/
def SleepsUntilFront (after : Int) (s : PollThread δ) : Prop :=
  ∀ d, s.sleep = some d → 0 ≤ d ∧ ∃ w, s.works.head? = some w ∧ d = w.wakeUpDate - after

/-- Late for some items but not for all, and for fewer of them than the time before. -/
def CatchesUp (after : Int) (s : PollThread δ) : Prop :=
  cfg.pollingBef9 = false ∧ nbLate after s.works ≠ 0 ∧ nbLate after s.works ≠ s.works.length ∧
    (s.previousNbLate = 0 ∨ nbLate after s.works < s.previousNbLate)

theorem sleepsUntilFront_none (h : s.sleep = none) : SleepsUntilFront after s := by
  intro d hd
  rw [h] at hd
  cases hd

theorem computeSleepTime_catching (h : CatchesUp cfg after s) :
    computeSleepTime cfg after s = { s with previousNbLate := nbLate after s.works, sleep := none } := by
  obtain ⟨hnew,hsome,hall,hless⟩ := h
  unfold computeSleepTime
  split
  next he => exact absurd (by simp [he,nbLate]) hsome
  next =>
    rw [hnew,if_neg (by decide)]
    simp only [hsome,hall,or_self,if_false]
    split
    next => rfl
    next hz => rw [if_pos (hless.resolve_left hz)]

/-- In every other case the list is analysed. -/
theorem computeSleepTime_analyse {w : WorkItem δ} {ws : List (WorkItem δ)} (hs : s.works = w :: ws)
    (h : ¬CatchesUp cfg after s) :
    ∃ s', s'.works = s.works ∧ computeSleepTime cfg after s = analyse after w.wakeUpDate s' := by
  unfold computeSleepTime
  rw [hs]
  dsimp only
  split
  next => exact ⟨s,hs,rfl⟩
  next hnew =>
    split
    next => exact ⟨s,hs,rfl⟩
    next hsome =>
      obtain ⟨hsome,hall⟩ := not_or.mp hsome
      have hno : ¬(s.previousNbLate = 0 ∨ nbLate after s.works < s.previousNbLate) := fun hl =>
        h ⟨Bool.not_eq_true _ ▸ hnew,hs ▸ hsome,hs ▸ hall,hl⟩
      obtain ⟨hz,hl⟩ := not_or.mp hno
      rw [if_neg hz,if_neg (hs ▸ hl)]
      exact ⟨{ s with works := w :: ws, sleep := none },rfl,rfl⟩

/-- After the loop the first item is at most the threshold behind, and only then can the sleep be
negative. -/
theorem sleepUntil_discarded (ho : InOrder WorkItem.wakeUpDate s.works)
    (hs : s.sleep = sleepUntil after s.works)
    (hd : ∀ w ∈ s.works, after - discardThreshold ≤ w.wakeUpDate) :
    SleepsUntilFront after s ↔ ¬∃ w ∈ s.works, w.wakeUpDate = after - discardThreshold := by
  cases hw : s.works with
  | nil =>
    rw [hw] at hs
    simpa using sleepsUntilFront_none hs
  | cons v ws =>
    rw [hw] at hs ho hd
    have hv := hd v List.mem_cons_self
    rw [sleepUntil] at hs
    unfold discardThreshold at hs hv ⊢
    have hfront : (∃ w ∈ v :: ws, w.wakeUpDate = after - 20000000) ↔
        v.wakeUpDate = after - 20000000 := by
      constructor
      · rintro ⟨w,hm,he⟩
        have := ho.head_le hm
        omega
      · exact fun he => ⟨v,List.mem_cons_self,he⟩
    rw [hfront]
    split at hs
    next hnear => exact iff_of_true (sleepsUntilFront_none hs) (by omega)
    next hfar =>
      constructor
      · intro h he
        have := (h _ hs).1
        omega
      · intro hne d hd'
        rw [hs,Option.some.injEq] at hd'
        exact ⟨by omega,v,by rw [hw]; rfl,hd'.symm⟩

theorem sleep_analysed {w : WorkItem δ} {ws : List (WorkItem δ)} (hs : s.works = w :: ws)
    (ho : InOrder WorkItem.wakeUpDate s.works) (hu : ∀ v ∈ s.works, Repeats v) :
    SleepsUntilFront after (analyse after w.wakeUpDate s) ↔ ¬OnThreshold after s.works := by
  unfold analyse
  dsimp only
  split
  next hlate =>
    split
    next hnear =>
      refine iff_of_true (sleepsUntilFront_none rfl) ?_
      rw [hs] at ho hu ⊢
      exact not_onThreshold ho hu hnear
    next hfar =>
      rw [← discardLate_on_threshold ho hu]
      exact sleepUntil_discarded (discardLoop_inOrder _ ho hu) rfl (fun v hv => discardLate_done ho hu hv)
  next hearly =>
    have hT : discardThreshold = 20000000 := rfl
    refine iff_of_true ?_ ?_
    · intro d hd
      injection hd with hd
      exact ⟨by omega,w,by rw [hs]; rfl,hd.symm⟩
    · rw [hs] at ho hu ⊢
      exact not_onThreshold ho hu (by omega)

/-- The sleep is absent or up to the first date, but for items late by the threshold exactly. -/
theorem sleep_until_front (hne : s.works ≠ []) (ho : InOrder WorkItem.wakeUpDate s.works)
    (hu : ∀ w ∈ s.works, 0 < w.update) :
    SleepsUntilFront after (computeSleepTime cfg after s) ↔
      CatchesUp cfg after s ∨ ¬OnThreshold after s.works := by
  by_cases hc : CatchesUp cfg after s
  · exact iff_of_true (sleepsUntilFront_none (by rw [computeSleepTime_catching cfg hc])) (.inl hc)
  · cases hs : s.works with
    | nil => exact absurd hs hne
    | cons w ws =>
      obtain ⟨s',hw,he⟩ := computeSleepTime_analyse cfg hs hc
      rw [he,sleep_analysed (hw.trans hs) (hw ▸ ho) (hw ▸ hu),hw,hs]
      exact (or_iff_right hc).symm

def oneLate : PollThread Unit :=
  ⟨[⟨some (),.pollCmd,1000 * millisecond,["State"],0,0⟩],[],0,0,[],[],false,0,none⟩

theorem sleep_until_front_in_time :
    SleepsUntilFront 5 (computeSleepTime ⟨fun _ => 6,false⟩ 5 oneLate) :=
  (sleep_until_front (s := oneLate) ⟨fun _ => 6,false⟩ (by decide) (List.pairwise_singleton _ _)
    (by decide)).mpr (.inr (not_onThreshold (w := oneLate.works.head (by decide))
      (List.pairwise_singleton _ _) (by unfold Repeats; decide) (by decide)))

/-- 20 ms late: the thread is to sleep for -20 ms. -/
theorem sleep_negative_on_threshold :
    InOrder WorkItem.wakeUpDate oneLate.works ∧ (∀ w ∈ oneLate.works, 0 < w.update) ∧
      (computeSleepTime ⟨fun _ => 6,false⟩ 20000000 oneLate).sleep = some (-20000000) ∧
      ¬SleepsUntilFront 20000000 (computeSleepTime ⟨fun _ => 6,false⟩ 20000000 oneLate) := by
  have hsleep : (computeSleepTime ⟨fun _ => 6,false⟩ 20000000 oneLate).sleep = some (-20000000) := by decide
  refine ⟨List.pairwise_singleton _ _,by decide,hsleep,fun h => ?_⟩
  exact absurd (h _ hsleep).1 (by decide)

theorem discard_ends_late :
    ∃ n, (∀ m, n ≤ m → discardLoop 3000000000 m oneLate.works = discardLoop 3000000000 n oneLate.works) ∧
      (∃ w ws, discardLoop 3000000000 n oneLate.works = w :: ws ∧
        3000000000 - w.wakeUpDate ≤ discardThreshold) ∧
      ∃ moved, List.Forall₂ (CaughtUp 3000000000) oneLate.works moved ∧
        moved.Perm (discardLoop 3000000000 n oneLate.works) :=
  discard_ends 3000000000 (by decide) (List.pairwise_singleton _ _) (by decide)

end Sleep

end CppTango.Polling.WorkList
