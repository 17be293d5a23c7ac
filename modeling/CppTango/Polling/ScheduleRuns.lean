import CppTango.Polling.ScheduleSteps

namespace CppTango.Polling.PollThread
open Lib

variable {δ : Type} {cfg : Config δ} {s : State δ}

theorem inv_begin (h : Inv s) (hi : s.inPoll = none) : Inv (beginPoll s) := by
  obtain ⟨ha,hr⟩ := h.idle hi
  unfold beginPoll
  cases hw : s.works with
  | nil => exact h
  | cons tmp ws =>
    have hheld : held s = [] := by simp [held,kept,waiting,hi]
    have hup := h.updated
    have hperm := h.works
    rw [hheld,List.append_nil,hw,listed_cons] at hperm
    rw [hw] at hup
    refine ⟨h.nodup,?_,h.ext,h.single,fun v hv => hup v (List.mem_cons_of_mem _ hv),?_,?_⟩
    · have hall : held { s with works := ws, inPoll := some tmp } = entries tmp := by
        simp [held,kept,waiting,moved,ha,hr]
      rw [hall]
      exact List.perm_append_comm.trans hperm
    · intro t ht
      cases ht
      exact hup tmp List.mem_cons_self
    · intro hc
      cases hc

theorem entries_drop (es : List (Nat × String)) (w : WorkItem δ) :
    entries (dropNames es w) = (entries w).filter (fun obj => obj.key.name ∉ es.map Prod.snd) := by
  simp only [entries,dropNames,List.filter_map]
  rfl

theorem put_back_updated {w : WorkItem δ} (hw : w.update ≠ 0) (hs : ∀ v ∈ s.works, v.update ≠ 0) :
    ∀ v ∈ (putBack w s).works, v.update ≠ 0 := by
  unfold putBack
  split
  · exact hs
  · exact insert_updated hw hs


/-- Putting back what a poll held, and nothing else, ends the poll. -/
theorem Inv.restore {s' : State δ} (h : Inv s) (hpol : s'.polled = s.polled)
    (hext : s'.extTrigWorks = s.extTrigWorks) (hin : s'.inPoll = none) (ha : s'.autoUpd = [])
    (hr : s'.remUpd = []) (hw : (listed s'.works).Perm (held s ++ listed s.works))
    (hup : ∀ v ∈ s'.works, v.update ≠ 0) : Inv s' where
  nodup := by rw [hpol]; exact h.nodup
  works := by
    have hheld : held s' = [] := by simp [held,kept,waiting,hin]
    rw [hheld,List.append_nil,hpol]
    exact (hw.trans List.perm_append_comm).trans h.works
  ext := by rw [hext,hpol]; exact h.ext
  single := by rw [hext]; exact h.single
  updated := hup
  polling := by intro tmp ht; rw [hin] at ht; cases ht
  idle := fun _ => ⟨ha,hr⟩

theorem put_back_rest (w : WorkItem δ) (s : State δ) :
    (putBack w s).polled = s.polled ∧ (putBack w s).extTrigWorks = s.extTrigWorks ∧
      (putBack w s).inPoll = s.inPoll ∧ (putBack w s).autoUpd = s.autoUpd ∧
      (putBack w s).remUpd = s.remUpd := by
  unfold putBack
  split
  · exact ⟨rfl,rfl,rfl,rfl,rfl⟩
  · exact ⟨rfl,rfl,rfl,rfl,rfl⟩

theorem kept_drop (ht : s.inPoll = some tmp) (hm : moved s = es.map Prod.snd) :
    kept s = entries (dropNames es tmp) := by
  rw [entries_drop]
  simp only [kept,ht,hm]

theorem Inv.waiting_updated (h : Inv s) (ht : s.inPoll = some tmp) : ∀ e ∈ s.autoUpd, e.1 ≠ 0 := by
  intro e he
  have hm : (⟨⟨tmp.dev,tmp.type,e.2⟩,e.1⟩ : PollObj δ) ∈ listed s.works ++ held s := by
    apply List.mem_append_right
    apply List.mem_append_right
    simp only [waiting,ht]
    exact List.mem_map.mpr ⟨e,he,rfl⟩
  simpa using (List.mem_filter.mp (h.works.mem_iff.mp hm)).2

theorem discard_updated (after : Int) (fuel : Nat) {ws : List (WorkItem δ)}
    (hs : ∀ v ∈ ws, v.update ≠ 0) : ∀ v ∈ discardLate after fuel ws, v.update ≠ 0 := by
  induction fuel generalizing ws with
  | zero => exact hs
  | succ fuel ih =>
    cases ws with
    | nil => exact hs
    | cons tmp ws =>
      simp only [discardLate]
      split
      · apply ih
        intro v hv
        exact insert_updated (w := WorkItem.next tmp) (hs tmp List.mem_cons_self) hs v
          (List.mem_of_mem_tail hv)
      · exact hs

theorem held_congr {s' : State δ} (hin : s'.inPoll = s.inPoll) (ha : s'.autoUpd = s.autoUpd)
    (hr : s'.remUpd = s.remUpd) : held s' = held s := by
  cases s
  cases s'
  simp only at hin ha hr
  subst hin ha hr
  rfl

theorem compute_sleep_rest (after next : Int) (fuel : Nat) (s : State δ) :
    (computeSleep after next fuel s).polled = s.polled ∧
      (computeSleep after next fuel s).extTrigWorks = s.extTrigWorks ∧
      (computeSleep after next fuel s).inPoll = s.inPoll ∧
      (computeSleep after next fuel s).autoUpd = s.autoUpd ∧
      (computeSleep after next fuel s).remUpd = s.remUpd ∧
      ((computeSleep after next fuel s).works = s.works ∨
        (computeSleep after next fuel s).works = discardLate after fuel s.works) := by
  unfold computeSleep
  dsimp only
  split
  · split
    · exact ⟨rfl,rfl,rfl,rfl,rfl,Or.inl rfl⟩
    · exact ⟨rfl,rfl,rfl,rfl,rfl,Or.inr rfl⟩
  · exact ⟨rfl,rfl,rfl,rfl,rfl,Or.inl rfl⟩

variable [DecidableEq δ]

omit [DecidableEq δ] in
theorem put_back_listed (w : WorkItem δ) (s : State δ) :
    (listed (putBack w s).works).Perm (entries w ++ listed s.works) := by
  unfold putBack
  split
  · rename_i he
    simp [entries,he]
  · exact insert_listed _ _

/-- Entering the waiting objects adds exactly them. -/
theorem add_autos (tmp : WorkItem δ) (es : List (Nat × String)) (s : State δ) :
    (listed (es.foldl (fun s e => addAuto tmp e s) s).works).Perm
      (es.map (fun e => ⟨⟨tmp.dev,tmp.type,e.2⟩,e.1⟩) ++ listed s.works) ∧
    (es.foldl (fun s e => addAuto tmp e s) s).polled = s.polled ∧
    (es.foldl (fun s e => addAuto tmp e s) s).extTrigWorks = s.extTrigWorks ∧
    (es.foldl (fun s e => addAuto tmp e s) s).remUpd = s.remUpd ∧
    (es.foldl (fun s e => addAuto tmp e s) s).inPoll = s.inPoll ∧
    ((∀ e ∈ es, e.1 ≠ 0) → (∀ v ∈ s.works, v.update ≠ 0) →
      ∀ v ∈ (es.foldl (fun s e => addAuto tmp e s) s).works, v.update ≠ 0) := by
  induction es generalizing s with
  | nil => exact ⟨List.Perm.refl _,rfl,rfl,rfl,rfl,fun _ hs => hs⟩
  | cons e es ih =>
    obtain ⟨hp,hpol,hext,hrem,hin,hup⟩ := ih (addAuto tmp e s)
    have hone : (listed (addAuto tmp e s).works).Perm
        (⟨⟨tmp.dev,tmp.type,e.2⟩,e.1⟩ :: listed s.works) ∧
        (e.1 ≠ 0 → (∀ v ∈ s.works, v.update ≠ 0) → ∀ v ∈ (addAuto tmp e s).works, v.update ≠ 0) ∧
        (addAuto tmp e s).polled = s.polled ∧ (addAuto tmp e s).extTrigWorks = s.extTrigWorks ∧
        (addAuto tmp e s).remUpd = s.remUpd ∧ (addAuto tmp e s).inPoll = s.inPoll := by
      unfold addAuto
      cases hj : joinItem ⟨tmp.dev,tmp.type,e.2⟩ e.1 s.works with
      | some ws =>
        exact ⟨join_listed _ _ hj,fun _ hs => (join_updated hj hs).2,rfl,rfl,rfl,rfl⟩
      | none => exact ⟨insert_listed _ _,fun he hs => insert_updated he hs,rfl,rfl,rfl,rfl⟩
    obtain ⟨hl,hu,h1,h2,h3,h4⟩ := hone
    simp only [List.foldl_cons,List.map_cons]
    refine ⟨?_,hpol.trans h1,hext.trans h2,hrem.trans h3,hin.trans h4,?_⟩
    · exact (hp.trans (hl.append_left _)).trans List.perm_middle
    · intro hes hs
      exact hup (fun x hx => hes x (List.mem_cons_of_mem _ hx)) (hu (hes e List.mem_cons_self) hs)

/-- At the end of a poll everything it held is back in the work list. -/
theorem inv_end (h : Inv s) (hp : s.inPoll ≠ none) (hc : s.autoUpd = [] ∨ s.remUpd = []) :
    Inv (endPoll s) := by
  obtain ⟨tmp,ht⟩ := Option.ne_none_iff_exists'.mp hp
  have hup := h.polling tmp ht
  unfold endPoll
  simp only [ht]
  by_cases ha : s.autoUpd = []
  · have hheld : held s = kept s := by simp [held,waiting,ht,ha]
    have hkept := kept_drop ht (show moved s = s.remUpd.map Prod.snd by simp [moved,ha])
    by_cases hr : s.remUpd = []
    · simp only [ha,hr,ne_eq,not_true_eq_false,if_false]
      refine h.restore rfl rfl rfl rfl rfl ?_ (insert_updated hup h.updated)
      have hall : held s = entries tmp := by
        rw [hheld,hkept,entries_drop,hr]
        simp
      rw [hall]
      exact insert_listed _ _
    · simp only [ha,hr,ne_eq,not_true_eq_false,not_false_eq_true,if_true,if_false]
      obtain ⟨h1,h2,h3,h4,-⟩ := put_back_rest (dropNames s.remUpd tmp) { s with inPoll := none, autoUpd := [] }
      refine h.restore h1 h2 h3 h4 rfl ?_ (put_back_updated hup h.updated)
      rw [hheld,hkept]
      exact put_back_listed _ _
  · have hr : s.remUpd = [] := hc.resolve_left ha
    have hkept := kept_drop ht (show moved s = s.autoUpd.map Prod.snd by simp [moved,hr])
    simp only [ha,ne_eq,not_false_eq_true,if_true]
    obtain ⟨h1,h2,h3,-,h5⟩ := put_back_rest (dropNames s.autoUpd tmp) { s with inPoll := none }
    obtain ⟨hl,hpol,hext,hrem,hin,hfold⟩ := add_autos tmp s.autoUpd
      (putBack (dropNames s.autoUpd tmp) { s with inPoll := none })
    refine h.restore (hpol.trans h1) (hext.trans h2) (hin.trans h3) rfl ((hrem.trans h5).trans hr) ?_
      (hfold (h.waiting_updated ht) (put_back_updated hup h.updated))
    have hwait : waiting s = s.autoUpd.map (fun e => ⟨⟨tmp.dev,tmp.type,e.2⟩,e.1⟩) := by
      simp only [waiting,ht]
    rw [held,hkept,hwait]
    refine (hl.trans ((put_back_listed _ _).append_left _)).trans ?_
    rw [← List.append_assoc]
    exact List.perm_append_comm.append_right _

omit [DecidableEq δ] in
/-- Moving a late item on leaves it once in the list, wherever it is inserted. -/
theorem discard_listed (after : Int) (fuel : Nat) (ws : List (WorkItem δ)) :
    (listed (discardLate after fuel ws)).Perm (listed ws) := by
  induction fuel generalizing ws with
  | zero => rfl
  | succ fuel ih =>
    cases ws with
    | nil => rfl
    | cons tmp ws =>
      simp only [discardLate]
      split
      · refine (ih _).trans ?_
        simp only [insertInList]
        split
        · rw [List.tail_cons,listed_cons]
          exact insert_listed _ _
        · exact List.Perm.refl _
      · rfl

omit [DecidableEq δ] in
theorem inv_compute_sleep (h : Inv s) (after next : Int) (fuel : Nat) :
    Inv (computeSleep after next fuel s) := by
  obtain ⟨hpol,hext,hin,ha,hr,hw⟩ := compute_sleep_rest after next fuel s
  have hheld : held (computeSleep after next fuel s) = held s := held_congr hin ha hr
  have hlist : (listed (computeSleep after next fuel s).works).Perm (listed s.works) := by
    rcases hw with hw | hw
    · rw [hw]
    · rw [hw]
      exact discard_listed after fuel s.works
  refine ⟨hpol ▸ h.nodup,?_,?_,hext ▸ h.single,?_,hin ▸ h.polling,?_⟩
  · rw [hheld,hpol]
    exact (hlist.append_right _).trans h.works
  · rw [hext,hpol]
    exact h.ext
  · rcases hw with hw | hw
    · rw [hw]
      exact h.updated
    · rw [hw]
      exact discard_updated after fuel h.updated
  · rw [hin,ha,hr]
    exact h.idle

omit [DecidableEq δ] in
theorem inv_sleep (h : Inv s) (after : Int) (fuel : Nat) :
    Inv (computeSleepTime cfg after fuel s) := by
  unfold computeSleepTime
  split
  · exact h
  · dsimp only
    have hlate : ∀ (late : Nat) (sleep : Option Int),
        Inv { s with previousNbLate := late, sleep := sleep } := fun _ _ => { h with }
    have hnone : Inv { s with sleep := none } := { h with }
    split
    · exact inv_compute_sleep h _ _ _
    · split
      · exact inv_compute_sleep h _ _ _
      · split
        · exact hlate _ none
        · split
          · exact hlate _ none
          · exact inv_compute_sleep hnone _ _ _

/-- One step: whatever the thread or its callers do, the places of the objects stay right. -/
theorem inv_step (h : Inv s) (a : Action δ) (hl : Legal s a) (hc : Clean s a) :
    Inv (step cfg a s) := by
  cases a with
  | clock now => exact { h with }
  | add obj delta => exact inv_add h obj hl delta
  | upd key upd => exact inv_upd h hc
  | rem key => exact inv_rem h hl hc
  | stop dev => exact inv_stop h hl dev
  | beginPoll => exact inv_begin h hl.1
  | endPoll => exact inv_end h hl hc
  | trigg => exact h
  | sleep after fuel => exact inv_sleep h after fuel

/-- Every step of a run meets a condition on the state it starts from. -/
def RunOk (ok : State δ → Action δ → Prop) (cfg : Config δ) : State δ → List (Action δ) → Prop
  | _,[] => True
  | s,a::acts => ok s a ∧ RunOk ok cfg (step cfg a s) acts

theorem inv_run (h : Inv s) (pre post : List (Action δ))
    (hr : RunOk (fun s a => Legal s a ∧ Clean s a) cfg s (pre ++ post)) : Inv (run cfg s pre) := by
  induction pre generalizing s with
  | nil => exact h
  | cons a pre ih =>
    obtain ⟨⟨hl,hc⟩,hrest⟩ := hr
    exact ih (inv_step h a hl hc) hrest

/-- In a run from empty lists whose steps are all clean, every polled object is scheduled
exactly once in every state without a poll in progress. -/
theorem polled_objects_scheduled (cfg : Config δ) (pre post : List (Action δ))
    (hr : RunOk (fun s a => Legal s a ∧ Clean s a) cfg {} (pre ++ post))
    (hi : (run cfg {} pre).inPoll = none) : Scheduled (run cfg {} pre) :=
  (inv_run inv_empty pre post hr).scheduled hi

def oneDevice : Config Unit := ⟨fun _ => 5,false⟩

def attr (name : String) : ObjKey Unit := ⟨(),.pollAttr,name⟩

/-- An attribute that slows its own polling down while an externally triggered one is there. -/
theorem scheduled_after_self_update :
    Scheduled (run oneDevice {} [.add ⟨attr "current",100⟩ 0,.add ⟨attr "voltage",0⟩ 0,.beginPoll,
      .upd (attr "current") 500,.endPoll]) := by
  refine polled_objects_scheduled oneDevice _ [] ?_ rfl
  refine ⟨⟨?_,trivial⟩,⟨?_,trivial⟩,⟨⟨rfl,?_⟩,trivial⟩,⟨?_,Or.inr ⟨?_,Or.inl ?_⟩⟩,⟨?_,Or.inr rfl⟩,trivial⟩
  all_goals decide

/-- An externally triggered attribute that gets a period while another one is polled is then
in both lists. -/
theorem twice_after_update :
    RunOk Legal oneDevice {} [.add ⟨attr "current",100⟩ 0,.add ⟨attr "voltage",0⟩ 0,
      .upd (attr "voltage") 200] ∧
    (run oneDevice {} [.add ⟨attr "current",100⟩ 0,.add ⟨attr "voltage",0⟩ 0,
      .upd (attr "voltage") 200]).inPoll = none ∧
    ¬ Scheduled (run oneDevice {} [.add ⟨attr "current",100⟩ 0,.add ⟨attr "voltage",0⟩ 0,
      .upd (attr "voltage") 200]) := by
  refine ⟨⟨?_,?_,?_,trivial⟩,rfl,?_⟩
  · decide
  · decide
  · decide
  · intro hs
    have hone := hs.once ⟨attr "voltage",200⟩ (by decide)
    revert hone
    decide

end CppTango.Polling.PollThread
