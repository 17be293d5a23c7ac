import CppTango.Polling.Schedule

namespace CppTango.Polling.PollThread
open Lib

variable {δ : Type} {cfg : Config δ} {s : State δ} {key : ObjKey δ} {ws : List (WorkItem δ)}

theorem insert_updated {w : WorkItem δ} (hw : w.update ≠ 0) (hs : ∀ v ∈ ws, v.update ≠ 0) :
    ∀ v ∈ insertInList w ws, v.update ≠ 0 := by
  induction ws with
  | nil =>
    intro v hv
    rw [List.mem_singleton.mp hv]
    exact hw
  | cons x ws ih =>
    intro v hv
    simp only [insertInList] at hv
    split at hv
    · rcases List.mem_cons.mp hv with rfl | hv
      · exact hs v List.mem_cons_self
      · exact ih (fun y hy => hs y (List.mem_cons_of_mem _ hy)) v hv
    · rcases List.mem_cons.mp hv with rfl | hv
      · exact hw
      · exact hs v hv

theorem single_snoc (hs : Single ws) (dev : δ) (type : PollObjType) (update : Nat) (n : String)
    (date : Int) : Single (ws ++ [⟨dev,type,update,[n],date⟩]) := by
  intro w hw
  rcases List.mem_append.mp hw with hw | hw
  · exact hs w hw
  · rw [List.mem_singleton.mp hw]
    exact ⟨n,rfl⟩

theorem key_of_mem {objs : List (PollObj δ)} (h : key ∈ keys objs) : ∃ u, ⟨key,u⟩ ∈ objs := by
  obtain ⟨obj,ho,rfl⟩ := List.mem_map.mp h
  exact ⟨obj.upd,ho⟩

theorem periodic_cons (hu : upd ≠ 0) (objs : List (PollObj δ)) :
    periodic (⟨key,upd⟩ :: objs) = ⟨key,upd⟩ :: periodic objs := by simp [periodic,hu]

theorem triggered_cons (hu : upd ≠ 0) (objs : List (PollObj δ)) :
    triggered (⟨key,upd⟩ :: objs) = triggered objs := by simp [triggered,hu]

theorem periodic_zero (objs : List (PollObj δ)) :
    periodic (⟨key,0⟩ :: objs) = periodic objs := by simp [periodic]

theorem triggered_zero (objs : List (PollObj δ)) :
    triggered (⟨key,0⟩ :: objs) = ⟨key,0⟩ :: triggered objs := by simp [triggered]

theorem Inv.nodup_places (h : Inv s) : ((listed s.works ++ held s).map PollObj.key).Nodup :=
  (h.works.map PollObj.key).nodup_iff.mpr (h.nodup.sublist (List.filter_sublist.map _))

/-- Nothing is both externally triggered and in the work list or held by the poll. -/
theorem Inv.not_ext (h : Inv s) (hk : key ∈ keys (listed s.works ++ held s)) :
    key ∉ keys (listed s.extTrigWorks) := by
  intro hc
  obtain ⟨u,hu⟩ := key_of_mem hk
  obtain ⟨v,hv⟩ := key_of_mem hc
  obtain ⟨hpu,hnz⟩ := List.mem_filter.mp (h.works.mem_iff.mp hu)
  obtain ⟨hpv,hz⟩ := List.mem_filter.mp (h.ext.mem_iff.mp hv)
  have := List.inj_on_of_nodup_map h.nodup hpu hpv rfl
  simp only [PollObj.mk.injEq,true_and] at this
  subst this
  simp at hnz hz
  exact hnz hz

theorem kept_key (hk : key ∈ keys (kept s)) :
    ∃ tmp, s.inPoll = some tmp ∧ tmp.dev = key.dev ∧ tmp.type = key.type := by
  cases ht : s.inPoll with
  | none => simp [kept,ht,keys] at hk
  | some tmp =>
    obtain ⟨u,hu⟩ := key_of_mem hk
    simp only [kept,ht] at hu
    obtain ⟨hd,hty,-,-⟩ := mem_entries (List.mem_filter.mp hu).1
    exact ⟨tmp,rfl,hd.symm,hty.symm⟩

theorem Inv.kept_not_works (h : Inv s) (hk : key ∈ keys (kept s)) : key ∉ keys (listed s.works) := by
  intro hc
  have hn := h.nodup_places
  rw [List.map_append] at hn
  have hheld : key ∈ (held s).map PollObj.key := by
    rw [held,List.map_append]
    exact List.mem_append_left _ hk
  exact List.disjoint_of_nodup_append hn hc hheld

variable [DecidableEq δ]

theorem join_updated {ws' : List (WorkItem δ)} (h : joinItem key upd ws = some ws')
    (hs : ∀ v ∈ ws, v.update ≠ 0) : upd ≠ 0 ∧ ∀ v ∈ ws', v.update ≠ 0 := by
  induction ws generalizing ws' with
  | nil => cases h
  | cons x ws ih =>
    have hx := hs x List.mem_cons_self
    have hs' : ∀ v ∈ ws, v.update ≠ 0 := fun y hy => hs y (List.mem_cons_of_mem _ hy)
    simp only [joinItem] at h
    split at h
    · rename_i hw
      cases h
      refine ⟨hw.2.1 ▸ hx,fun v hv => ?_⟩
      rcases List.mem_cons.mp hv with rfl | hv
      · exact hx
      · exact hs' v hv
    · obtain ⟨vs,hv,rfl⟩ := Option.map_eq_some_iff.mp h
      obtain ⟨hu,hvs⟩ := ih hv hs'
      refine ⟨hu,fun v hm => ?_⟩
      rcases List.mem_cons.mp hm with rfl | hm
      · exact hx
      · exact hvs v hm

theorem add_insert_updated (hu : upd ≠ 0) (date : Int) (hs : ∀ v ∈ ws, v.update ≠ 0) :
    ∀ v ∈ addInsertInList cfg key upd date ws, v.update ≠ 0 := by
  unfold addInsertInList
  split
  · cases hj : joinItem key upd ws with
    | some ws' => exact (join_updated hj hs).2
    | none => exact insert_updated hu hs
  · exact insert_updated hu hs

theorem erase_updated {ws' : List (WorkItem δ)} (h : eraseName key ws = some ws')
    (hs : ∀ v ∈ ws, v.update ≠ 0) : ∀ v ∈ ws', v.update ≠ 0 := by
  induction ws generalizing ws' with
  | nil => cases h
  | cons x ws ih =>
    have hx := hs x List.mem_cons_self
    have hs' : ∀ v ∈ ws, v.update ≠ 0 := fun y hy => hs y (List.mem_cons_of_mem _ hy)
    simp only [eraseName] at h
    split at h
    · split at h
      · cases h
        exact hs'
      · cases h
        intro v hv
        rcases List.mem_cons.mp hv with rfl | hv
        · exact hx
        · exact hs' v hv
    · obtain ⟨vs,hv,rfl⟩ := Option.map_eq_some_iff.mp h
      intro v hm
      rcases List.mem_cons.mp hm with rfl | hm
      · exact hx
      · exact ih hv hs' v hm

/-- An object that is polled now goes to the list its period says. -/
theorem inv_add (h : Inv s) (obj : PollObj δ) (hn : obj.key ∉ s.polled.map PollObj.key)
    (delta : Nat) : Inv (addObjPolling cfg obj delta s) := by
  have hnodup : ((s.polled ++ [obj]).map PollObj.key).Nodup := by
    rw [List.map_append]
    exact List.Nodup.append h.nodup (List.nodup_singleton _) (by simpa using hn)
  have hper : (periodic (s.polled ++ [obj])) = periodic s.polled ++ periodic [obj] :=
    List.filter_append _ _
  have htri : (triggered (s.polled ++ [obj])) = triggered s.polled ++ triggered [obj] :=
    List.filter_append _ _
  simp only [addObjPolling,executeCmd,addObj]
  cases hj : (if cfg.groups obj.key.dev obj.key.type = true then joinItem obj.key obj.upd s.works
      else none) with
  | some ws' =>
    have hjoin : joinItem obj.key obj.upd s.works = some ws' := by
      split at hj
      · exact hj
      · cases hj
    obtain ⟨hu,hup⟩ := join_updated hjoin h.updated
    refine Inv.of_perm (List.Perm.refl _) hnodup ?_ ?_ h.single hup h.polling h.idle
    · rw [hper]
      refine ((join_listed obj.key obj.upd hjoin).append_right _).trans ?_
      have hone : periodic [obj] = [obj] := by simp [periodic,hu]
      rw [hone]
      exact ((h.works.cons obj)).trans (List.perm_append_singleton _ _).symm
    · have hone : triggered [obj] = [] := by simp [triggered,hu]
      rw [htri,hone,List.append_nil]
      exact h.ext
  | none =>
    by_cases hu : obj.upd ≠ 0
    · simp only [hu,ne_eq,not_false_eq_true,if_true]
      have hone : periodic [obj] = [obj] := by simp [periodic,hu]
      have hnil : triggered [obj] = [] := by simp [triggered,hu]
      refine Inv.of_perm (List.Perm.refl _) hnodup ?_ ?_ h.single (insert_updated hu h.updated)
        h.polling h.idle
      · rw [hper,hone]
        refine ((insert_listed _ _).append_right _).trans ?_
        exact ((h.works.cons obj)).trans (List.perm_append_singleton _ _).symm
      · rw [htri,hnil,List.append_nil]
        exact h.ext
    · simp only [hu,if_false]
      have hu0 : obj.upd = 0 := by simpa using hu
      have hone : triggered [obj] = [obj] := by simp [triggered,hu0]
      have hnil : periodic [obj] = [] := by simp [periodic,hu0]
      refine Inv.of_perm (List.Perm.refl _) hnodup ?_ ?_ (single_snoc h.single _ _ _ _ _) h.updated
        h.polling h.idle
      · rw [hper,hnil,List.append_nil]
        exact h.works
      · rw [htri,hone,listed_append]
        exact h.ext.append_right _

/-- Removing an object takes it out of the list it is in, if it is in one. -/
theorem inv_rem (h : Inv s) (hk : key ∈ s.polled.map PollObj.key) (hc : key ∉ keys (held s)) :
    Inv (remObjPolling cfg key s) := by
  obtain ⟨u,hm⟩ := key_of_mem hk
  have hfind : s.polled.find? (fun obj => obj.key = key) = some ⟨key,u⟩ := by
    cases hf : s.polled.find? (fun obj => obj.key = key) with
    | none =>
      have := List.find?_eq_none.mp hf _ hm
      simp at this
    | some obj =>
      have hk' : obj.key = key := by simpa using List.find?_some hf
      rw [List.inj_on_of_nodup_map h.nodup (List.mem_of_find?_eq_some hf) hm hk']
  have hnodup := nodup_without key h.nodup
  simp only [remObjPolling,hfind]
  by_cases hu : u = 0
  · subst hu
    have hin : key ∈ keys (listed s.extTrigWorks) := by
      apply (h.ext.map PollObj.key).mem_iff.mpr
      exact List.mem_map.mpr ⟨⟨key,0⟩,List.mem_filter.mpr ⟨hm,by simp⟩,rfl⟩
    cases he : eraseTrig key s.extTrigWorks with
    | none => exact absurd hin (trig_none key h.single he)
    | some ext =>
      obtain ⟨hs,v,hv⟩ := trig_listed key h.single he
      obtain ⟨-,hw,hext⟩ := h.drop_ext hv
      simp only [if_true,executeCmd,he,Option.getD_some]
      exact Inv.of_perm (List.Perm.refl _) hnodup hw hext hs h.updated h.polling h.idle
  · have hin : key ∈ keys (listed s.works) := by
      have hall : key ∈ keys (listed s.works ++ held s) := by
        apply (h.works.map PollObj.key).mem_iff.mpr
        exact List.mem_map.mpr ⟨⟨key,u⟩,List.mem_filter.mpr ⟨hm,by simpa using hu⟩,rfl⟩
      rw [keys,List.map_append] at hall
      exact (List.mem_append.mp hall).resolve_right hc
    cases he : eraseName key s.works with
    | none => exact absurd hin (erase_none key he)
    | some ws =>
      obtain ⟨v,hv⟩ := erase_listed key he
      obtain ⟨-,-,hw,hext⟩ := h.drop_works (hv.append_right (held s))
      simp only [hu,if_false,executeCmd,he,Option.getD_some]
      exact Inv.of_perm (List.Perm.refl _) hnodup hw hext h.single (erase_updated he h.updated)
        h.polling h.idle

theorem inv_stop (h : Inv s) (hi : s.inPoll = none) (dev : δ) : Inv (stopPolling cfg dev s) := by
  have hheld : held s = [] := by simp [held,kept,waiting,hi]
  have hcomm : ∀ (p q : PollObj δ → Bool) (objs : List (PollObj δ)),
      (objs.filter p).filter q = (objs.filter q).filter p := by
    intro p q objs
    rw [List.filter_filter,List.filter_filter]
    exact List.filter_congr (fun obj _ => Bool.and_comm _ _)
  have hw := h.works
  rw [hheld,List.append_nil] at hw
  refine ⟨?_,?_,?_,?_,?_,h.polling,h.idle⟩
  · exact h.nodup.sublist (List.filter_sublist.map _)
  · have hheld' : held (stopPolling cfg dev s) = [] := by
      simp [held,kept,waiting,stopPolling,executeCmd,hi]
    rw [hheld',List.append_nil]
    simp only [stopPolling,executeCmd]
    rw [listed_filter_dev,periodic,hcomm]
    exact hw.filter _
  · simp only [stopPolling,executeCmd]
    rw [listed_filter_dev,triggered,hcomm]
    exact h.ext.filter _
  · intro w hm
    exact h.single w (List.mem_filter.mp hm).1
  · intro w hm
    exact h.updated w (List.mem_filter.mp hm).1

/-- Changing the period of an object takes it out of what is still kept. -/
theorem kept_moved {s' : State δ} (hk : key ∈ keys (kept s)) (hp : s'.inPoll = s.inPoll)
    (hm : ∀ n, n ∈ moved s' ↔ n ∈ moved s ∨ n = key.name) :
    kept s' = without PollObj.key key (kept s) := by
  obtain ⟨tmp,ht,hd,hty⟩ := kept_key hk
  simp only [kept,hp,ht,without,List.filter_filter]
  apply List.filter_congr
  intro obj ho
  obtain ⟨hd',hty',-,-⟩ := mem_entries ho
  have hiff : obj.key = key ↔ obj.key.name = key.name := by
    constructor
    · intro he
      rw [he]
    · intro he
      obtain ⟨⟨d,t,n⟩,v⟩ := obj
      obtain ⟨d',t',n'⟩ := key
      simp only at hd hty hd' hty' he
      rw [hd',hty',hd,hty,he]
  simp only [hm,not_or,ne_eq,hiff,decide_not,Bool.decide_and]
  exact Bool.and_comm _ _

theorem held_auto {s' : State δ} (upd : Nat) (hk : key ∈ keys (kept s)) (hp : s'.inPoll = s.inPoll)
    (ha : s'.autoUpd = s.autoUpd ++ [(upd,key.name)]) (hr : s'.remUpd = s.remUpd) :
    held s' = without PollObj.key key (kept s) ++ (waiting s ++ [⟨key,upd⟩]) := by
  obtain ⟨tmp,ht,hd,hty⟩ := kept_key hk
  have hm : ∀ n, n ∈ moved s' ↔ n ∈ moved s ∨ n = key.name := by
    intro n
    simp only [moved,ha,hr,List.map_append,List.mem_append,List.map_cons,List.map_nil,
      List.mem_singleton]
    grind
  have hw : waiting s' = waiting s ++ [⟨key,upd⟩] := by
    simp [waiting,hp,ht,ha,hd,hty]
  rw [held,kept_moved hk hp hm,hw]

theorem held_rem {s' : State δ} (upd : Nat) (hk : key ∈ keys (kept s)) (hp : s'.inPoll = s.inPoll)
    (ha : s'.autoUpd = s.autoUpd) (hr : s'.remUpd = s.remUpd ++ [(upd,key.name)]) :
    held s' = without PollObj.key key (kept s) ++ waiting s := by
  have hm : ∀ n, n ∈ moved s' ↔ n ∈ moved s ∨ n = key.name := by
    intro n
    simp only [moved,ha,hr,List.map_append,List.mem_append,List.map_cons,List.map_nil,
      List.mem_singleton]
    grind
  have hw : waiting s' = waiting s := by
    simp only [waiting,hp,ha]
  rw [held,kept_moved hk hp hm,hw]

/-- Splitting an object off what the poll in progress still keeps. -/
theorem Inv.split_kept (h : Inv s) (hk : key ∈ keys (kept s)) :
    ∃ u, (listed s.works ++ held s).Perm
      (⟨key,u⟩ :: (listed s.works ++ (without PollObj.key key (kept s) ++ waiting s))) := by
  obtain ⟨u,hu⟩ := key_of_mem hk
  have hn : ((kept s).map PollObj.key).Nodup := by
    have hsub : (kept s).Sublist (listed s.works ++ held s) :=
      (List.sublist_append_left _ _).trans (List.sublist_append_right _ _)
    exact h.nodup_places.sublist (hsub.map _)
  refine ⟨u,?_⟩
  refine (((perm_without hn hu).append_right (waiting s)).append_left (listed s.works)).trans ?_
  exact List.perm_middle

section Update
variable {upd : Nat}

/-- The period of an object in the work list is changed to another one. -/
theorem inv_upd_works (h : Inv s) (hk : key ∈ keys (listed s.works)) (hu : upd ≠ 0) :
    Inv (updObjPollingPeriod cfg key upd s) := by
  cases he : eraseName key s.works with
  | none => exact absurd hk (erase_none key he)
  | some ws =>
    have hne : s.works ≠ [] := by
      intro hc
      rw [hc] at hk
      simp [keys] at hk
    obtain ⟨u,hv⟩ := erase_listed key he
    obtain ⟨-,hp,hw,hext⟩ := h.drop_works (hv.append_right (held s))
    have hpol := update_polled h.nodup (hp.mem_iff.mpr List.mem_cons_self) upd
    simp only [updObjPollingPeriod,executeCmd,updPeriod,hu,hne,he,ne_eq,not_false_eq_true,if_true]
    refine Inv.of_perm hpol (nodup_cons_without h.nodup key upd) ?_ ?_ h.single
      (add_insert_updated hu _ (erase_updated he h.updated)) h.polling h.idle
    · rw [periodic_cons hu]
      exact ((add_insert_listed cfg key upd _ ws).append_right _).trans (hw.cons _)
    · rw [triggered_cons hu]
      exact hext

/-- An object of the work list becomes externally triggered. -/
theorem inv_upd_zero (h : Inv s) (hk : key ∈ keys (listed s.works)) :
    Inv (updObjPollingPeriod cfg key 0 s) := by
  cases he : eraseName key s.works with
  | none => exact absurd hk (erase_none key he)
  | some ws =>
    obtain ⟨u,hv⟩ := erase_listed key he
    obtain ⟨-,hp,hw,hext⟩ := h.drop_works (hv.append_right (held s))
    have hpol := update_polled h.nodup (hp.mem_iff.mpr List.mem_cons_self) 0
    simp only [updObjPollingPeriod,executeCmd,updPeriod,he,ne_eq,not_true_eq_false,if_false]
    refine Inv.of_perm hpol (nodup_cons_without h.nodup key 0) ?_ ?_
      (single_snoc h.single _ _ _ _ _) (erase_updated he h.updated) h.polling h.idle
    · rw [periodic_zero]
      exact hw
    · rw [listed_append,triggered_zero]
      exact List.perm_append_comm.trans (hext.cons _)

/-- An externally triggered object gets a period while the work list is empty. -/
theorem inv_upd_ext (h : Inv s) (hw : s.works = []) (hk : key ∈ keys (listed s.extTrigWorks))
    (hu : upd ≠ 0) : Inv (updObjPollingPeriod cfg key upd s) := by
  cases he : eraseTrig key s.extTrigWorks with
  | none => exact absurd hk (trig_none key h.single he)
  | some ext =>
    obtain ⟨hs,v,hv⟩ := trig_listed key h.single he
    obtain ⟨hp,hwork,hext⟩ := h.drop_ext hv
    have hpol := update_polled h.nodup (hp.mem_iff.mpr List.mem_cons_self) upd
    simp only [updObjPollingPeriod,executeCmd,updPeriod,updNotFound,hu,hw,he,ne_eq,not_false_eq_true,
      not_true_eq_false,if_true,if_false,List.nil_append]
    refine Inv.of_perm hpol (nodup_cons_without h.nodup key upd) ?_ ?_ hs
      (insert_updated hu (by simp)) h.polling h.idle
    · rw [hw] at hwork
      rw [periodic_cons hu]
      exact ((insert_listed _ _).append_right _).trans (hwork.cons _)
    · rw [triggered_cons hu]
      exact hext

/-- The period of an object being polled is changed by that poll: into the work list if there
is one, else it waits for the end of the poll. -/
theorem inv_upd_kept (h : Inv s) (hk : key ∈ keys (kept s)) (hu : upd ≠ 0) :
    Inv (updObjPollingPeriod cfg key upd s) := by
  obtain ⟨u,hsplit⟩ := h.split_kept hk
  obtain ⟨-,hp,hw,hext⟩ := h.drop_works hsplit
  have hpol := update_polled h.nodup (hp.mem_iff.mpr List.mem_cons_self) upd
  have hnodup := nodup_cons_without h.nodup key upd
  have hnone : eraseName key s.works = none := by
    cases he : eraseName key s.works with
    | none => rfl
    | some ws =>
      obtain ⟨v,hv⟩ := erase_listed key he
      have hin : key ∈ keys (listed s.works) := List.mem_map.mpr ⟨_,hv.mem_iff.mpr List.mem_cons_self,rfl⟩
      exact absurd hin (h.kept_not_works hk)
  have hpoll : s.inPoll ≠ none := by
    intro hc
    simp [kept,hc,keys] at hk
  by_cases hne : s.works = []
  · have htrig : eraseTrig key s.extTrigWorks = none := by
      cases he : eraseTrig key s.extTrigWorks with
      | none => rfl
      | some ext =>
        obtain ⟨-,v,hv⟩ := trig_listed key h.single he
        have hin : key ∈ keys (listed s.extTrigWorks) :=
          List.mem_map.mpr ⟨_,hv.mem_iff.mpr List.mem_cons_self,rfl⟩
        refine absurd hin (h.not_ext ?_)
        exact List.mem_map.mpr ⟨⟨key,u⟩,hsplit.mem_iff.mpr List.mem_cons_self,rfl⟩
    simp only [updObjPollingPeriod,executeCmd,updPeriod,updNotFound,hu,hne,htrig,ne_eq,
      not_false_eq_true,not_true_eq_false,if_true,if_false]
    refine Inv.of_perm hpol hnodup ?_ ?_ h.single (by simp) h.polling (fun hc => absurd hc hpoll)
    · rw [periodic_cons hu,held_auto upd hk]
      · rw [hne] at hw
        refine List.Perm.trans ?_ (hw.cons _)
        rw [listed_nil,List.nil_append,List.nil_append,← List.append_assoc]
        exact List.perm_append_singleton _ _
      all_goals rfl
    · rw [triggered_cons hu]
      exact hext
  · simp only [updObjPollingPeriod,executeCmd,updPeriod,hu,hne,hnone,ne_eq,not_false_eq_true,if_true]
    refine Inv.of_perm hpol hnodup ?_ ?_ h.single (add_insert_updated hu _ h.updated) h.polling
      (fun hc => absurd hc hpoll)
    · rw [periodic_cons hu,held_rem upd hk]
      · exact ((add_insert_listed cfg key upd _ s.works).append_right _).trans (hw.cons _)
      all_goals rfl
    · rw [triggered_cons hu]
      exact hext

theorem inv_upd (h : Inv s) (hc : Clean s (.upd key upd)) :
    Inv (updObjPollingPeriod cfg key upd s) := by
  rcases hc with hk | ⟨hu,hk | ⟨hw,hk⟩⟩
  · by_cases hu : upd = 0
    · subst hu
      exact inv_upd_zero h hk
    · exact inv_upd_works h hk hu
  · exact inv_upd_kept h hk hu
  · exact inv_upd_ext h hw hk hu

end Update

end CppTango.Polling.PollThread
