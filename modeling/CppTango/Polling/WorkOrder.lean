import CppTango.Polling.SleepTime

namespace CppTango.Polling.WorkList

open CppTango.Lib

variable {δ : Type}

/-- The work list stands in the order of its wake up dates. -/
def Sorted (works : List (WorkItem δ)) : Prop := InOrder WorkItem.wakeUpDate works

theorem sorted_insertInList {works : List (WorkItem δ)} (h : Sorted works) (w : WorkItem δ) :
    Sorted (insertInList w works) := by
  rw [Sorted,insertInList_eq]
  exact h.enter w

section Lists
variable [DecidableEq δ] {works : List (WorkItem δ)}

omit [DecidableEq δ] in
theorem sorted_addName (h : Sorted works) (p : WorkItem δ → Bool) (name : String) :
    Sorted (updateFirst p (addName name) works) :=
  h.congr (keys_updateFirst (fun _ => rfl))

theorem sorted_addInsertInList (cfg : Config δ) (h : Sorted works) (w : WorkItem δ) :
    Sorted (addInsertInList cfg w works) := by
  unfold addInsertInList joinOr
  split
  next =>
    split
    next => exact sorted_addName h _ _
    next => exact sorted_insertInList h w
  next => exact sorted_insertInList h w

/-- A line loses a name, or goes. -/
theorem eraseName_dates (dev : δ) (type : PollObjType) (name : String) (works : List (WorkItem δ)) :
    ((eraseName dev type name works).map WorkItem.wakeUpDate).Sublist (works.map WorkItem.wakeUpDate) := by
  induction works with
  | nil => exact .slnil
  | cons w ws ih =>
    rw [eraseName]
    split
    next =>
      split
      next => exact List.sublist_cons_self _ _
      next => exact List.Sublist.refl _
    next => exact ih.cons_cons _

theorem sorted_eraseName (h : Sorted works) (dev : δ) (type : PollObjType) (name : String) :
    Sorted (eraseName dev type name works) :=
  h.dates_sublist (eraseName_dates dev type name works)

end Lists

section Commands
variable [DecidableEq δ] (cfg : Config δ) {s : PollThread δ}

theorem sorted_addObj (cmd : PollThCmd δ) (h : Sorted s.works) : Sorted (addObj cfg cmd s).works := by
  unfold addObj
  dsimp only
  split
  next => exact sorted_addName h _ _
  next =>
    split
    next => exact sorted_insertInList h _
    next => exact h

theorem sorted_updNotFound (cmd : PollThCmd δ) (names : List String) (h : Sorted s.works) :
    Sorted (updNotFound cmd names s).works := by
  unfold updNotFound
  split
  next => exact sorted_insertInList h _
  next => exact h

theorem sorted_updPeriod (cmd : PollThCmd δ) (h : Sorted s.works) : Sorted (updPeriod cfg cmd s).works := by
  have herase := sorted_eraseName h cmd.dev cmd.type cmd.name
  unfold updPeriod
  dsimp only
  split
  next =>
    split
    next => exact sorted_addInsertInList cfg herase _
    next => exact sorted_updNotFound cmd _ h
  next =>
    split
    next => exact herase
    next => exact sorted_updNotFound cmd _ herase

theorem sorted_executeCmd (cmd : PollThCmd δ) (h : Sorted s.works) : Sorted (executeCmd cfg s cmd).works := by
  unfold executeCmd
  cases cmd.cmdCode with
  | addObj => exact sorted_addObj cfg cmd h
  | remObj => exact sorted_eraseName h _ _ _
  | remDev => exact h.sublist List.filter_sublist
  | updPeriod => exact sorted_updPeriod cfg cmd h
  | addHeartbeat => exact sorted_insertInList h _
  | remHeartbeat => exact h.sublist List.eraseP_sublist
  | start | stop | remExtTrigObj | exit => exact h

theorem sorted_executeCmds (cmds : List (PollThCmd δ)) (h : Sorted s.works) :
    Sorted (cmds.foldl (executeCmd cfg) s).works := by
  induction cmds generalizing s with
  | nil => exact h
  | cons cmd cmds ih => exact ih (sorted_executeCmd cfg cmd h)

end Commands

section Polling
variable [DecidableEq δ] (cfg : Config δ) {s : PollThread δ}

omit [DecidableEq δ] in
theorem sorted_putBack (w : WorkItem δ) (h : Sorted s.works) : Sorted (putBack w s).works := by
  unfold putBack
  split
  next => exact h
  next => exact sorted_insertInList h _

theorem sorted_addAuto (tmp : WorkItem δ) (entries : List (Int × String)) (h : Sorted s.works) :
    Sorted (entries.foldl (addAuto tmp) s).works := by
  induction entries generalizing s with
  | nil => exact h
  | cons entry entries ih =>
    refine ih ?_
    unfold addAuto
    split
    next => exact sorted_addName h _ _
    next => exact sorted_insertInList h _

theorem sorted_endPoll (tmp : WorkItem δ) (h : Sorted s.works) : Sorted (endPoll tmp s).works := by
  unfold endPoll
  split
  next => exact sorted_addAuto tmp _ (sorted_putBack _ h)
  next =>
    split
    next => exact sorted_putBack _ h
    next => exact sorted_insertInList h _

theorem sorted_oneMorePoll (cmds : List (PollThCmd δ)) (needed : Int) (h : Sorted s.works) :
    Sorted (oneMorePoll cfg cmds needed s).works := by
  unfold oneMorePoll
  split
  next => exact h
  next tmp works hs =>
    have htail : Sorted works := InOrder.tail (a := tmp) (hs ▸ h)
    dsimp only
    split
    next => exact sorted_endPoll tmp htail
    next => exact sorted_endPoll _ (sorted_executeCmds cfg cmds htail)

end Polling

section Tuning
variable {limit gap d : Int} {prev w : WorkItem δ} {works : List (WorkItem δ)}

/-- When an item is due behind one due at `d`: the last poll of that one up to the item's own date,
then the time it needs and a share of the spare time. -/
def slot (gap d : Int) (prev w : WorkItem δ) : Int :=
  (if d < w.wakeUpDate then w.wakeUpDate - (w.wakeUpDate - d) % prev.update else d) + prev.neededTime + gap

/-- The first item that is not tuned is earlier than the slot of the last one that is. -/
def Overtaken (limit gap d : Int) (prev : WorkItem δ) : List (WorkItem δ) → Prop
  | [] => False
  | w :: ws =>
    if w.wakeUpDate < limit then Overtaken limit gap (slot gap d prev w) w ws
    else w.wakeUpDate < d

theorem tunedDate_eq (gap : Int) (prev w : WorkItem δ) : tunedDate gap prev w = slot gap prev.wakeUpDate prev w := by
  unfold tunedDate lastPoll slot
  split
  next =>
    have := Int.emod_add_ediv_mul (w.wakeUpDate - prev.wakeUpDate) prev.update
    omega
  next => omega

theorem slot_later (hu : 0 < prev.update) (hn : 0 ≤ prev.neededTime) (hg : 0 ≤ gap) : d ≤ slot gap d prev w := by
  unfold slot
  split
  next hd =>
    have hmod := Int.emod_add_ediv_mul (w.wakeUpDate - d) prev.update
    have hrounds : 0 ≤ (w.wakeUpDate - d) / prev.update := Int.ediv_nonneg (by omega) (Int.le_of_lt hu)
    have := Int.mul_nonneg hrounds (Int.le_of_lt hu)
    omega
  next => omega

theorem overtaken_tuned (works : List (WorkItem δ)) :
    Overtaken limit gap d (tuned gap prev w) works ↔ Overtaken limit gap d w works := by
  cases works <;> exact Iff.rfl

theorem tuneFrom_untouched (h : ∀ w ∈ works, limit ≤ w.wakeUpDate) :
    tuneFrom limit gap prev works = works := by
  induction works generalizing prev with
  | nil => rfl
  | cons w ws ih =>
    have hw := h w List.mem_cons_self
    rw [tuneFrom,if_neg (by omega),ih (fun v hv => h v (List.mem_cons_of_mem _ hv))]

/-- A tuned item is behind its predecessor; only the first one left as it was may not be. -/
theorem sorted_tuneFrom (hg : 0 ≤ gap) (ho : Sorted works) (hp : 0 < prev.update ∧ 0 ≤ prev.neededTime)
    (hw : ∀ w ∈ works, 0 < w.update ∧ 0 ≤ w.neededTime) :
    Sorted (prev :: tuneFrom limit gap prev works) ↔
      ¬Overtaken limit gap prev.wakeUpDate prev works := by
  induction works generalizing prev with
  | nil => exact iff_of_true (List.pairwise_singleton _ _) id
  | cons w ws ih =>
    by_cases ht : w.wakeUpDate < limit
    · have hstep := @ih (tuned gap prev w) ho.tail (hw w List.mem_cons_self)
        (fun v hv => hw v (List.mem_cons_of_mem _ hv))
      have hdate : (tuned gap prev w).wakeUpDate = slot gap prev.wakeUpDate prev w := tunedDate_eq gap prev w
      rw [hdate,overtaken_tuned] at hstep
      rw [tuneFrom,if_pos ht,Overtaken,if_pos ht,← hstep]
      exact inOrder_cons_cons.trans (and_iff_right (hdate ▸ slot_later hp.1 hp.2 hg))
    · have hall : ∀ v ∈ w :: ws, limit ≤ v.wakeUpDate := fun v hv => by
        have := ho.head_le hv
        omega
      rw [tuneFrom_untouched hall,Overtaken,if_neg ht,Int.not_lt]
      exact inOrder_cons_cons.trans (and_iff_left ho)

theorem shiftFrom_sorted (ho : Sorted (prev :: works)) : shiftFrom prev works = works := by
  induction works generalizing prev with
  | nil => rfl
  | cons w ws ih =>
    obtain ⟨hle,hrest⟩ := inOrder_cons_cons.mp ho
    dsimp only [shiftFrom]
    rw [if_neg (by omega),ih hrest]

/-- There is time for all items, and the last one tuned passes the next one. -/
def Overtakes (now : Int) : List (WorkItem δ) → Prop
  | [] => False
  | first :: rest =>
    neededSum (first :: rest) ≤ minUpd first rest ∧
      Overtaken (nextTuning now first rest) (maxDeltaNeeded first rest) first.wakeUpDate first rest

theorem sorted_tuneList (now : Int) (ho : Sorted works) (hu : ∀ w ∈ works, 0 < w.update)
    (hn : ∀ w ∈ works, 0 ≤ w.neededTime) : Sorted (tuneList true now works) ↔ ¬Overtakes now works := by
  cases works with
  | nil => exact iff_of_true ho id
  | cons first rest =>
    rw [tuneList,Overtakes]
    by_cases hr : rest = []
    · rw [if_pos hr,hr]
      exact iff_of_true (hr ▸ ho) (fun h => h.2)
    rw [if_neg hr,if_pos rfl]
    by_cases hfit : neededSum (first :: rest) > minUpd first rest
    · rw [if_pos hfit]
      exact iff_of_true ho (fun h => absurd h.1 (Int.not_le.mpr hfit))
    have hgap : 0 ≤ maxDeltaNeeded first rest := Int.ediv_nonneg (by omega) (Int.natCast_nonneg _)
    have hfirst := And.intro (hu first List.mem_cons_self) (hn first List.mem_cons_self)
    rw [if_neg hfit,sorted_tuneFrom hgap ho.tail hfirst
      (fun w hw => ⟨hu w (List.mem_cons_of_mem _ hw),hn w (List.mem_cons_of_mem _ hw)⟩)]
    exact not_congr (and_iff_right (Int.not_lt.mp hfit)).symm

theorem tuneList_sorted (now : Int) (ho : Sorted works) : tuneList false now works = works := by
  cases works with
  | nil => rfl
  | cons first rest =>
    rw [tuneList]
    split
    next => rfl
    next => rw [if_neg (by decide),shiftFrom_sorted ho]

end Tuning

section Sleep
variable (cfg : Config δ) {s : PollThread δ}

theorem sorted_analyse (after next : Int) (ho : Sorted s.works) (hu : ∀ w ∈ s.works, 0 < w.update) :
    Sorted (analyse after next s).works := by
  unfold analyse
  dsimp only
  split
  next =>
    split
    next => exact ho
    next => exact discardLoop_inOrder _ ho hu
  next => exact ho

theorem sorted_computeSleepTime (after : Int) (ho : Sorted s.works) (hu : ∀ w ∈ s.works, 0 < w.update) :
    Sorted (computeSleepTime cfg after s).works := by
  by_cases hc : CatchesUp cfg after s
  · rw [computeSleepTime_catching cfg hc]
    exact ho
  · cases hs : s.works with
    | nil => simpa [computeSleepTime,hs] using hs ▸ ho
    | cons w ws =>
      obtain ⟨s',hw,he⟩ := computeSleepTime_analyse cfg hs hc
      rw [he]
      exact sorted_analyse _ _ (hw ▸ ho) (hw ▸ hu)

end Sleep

section Operations
variable [DecidableEq δ] (cfg : Config δ) {s : PollThread δ}

/-- What the polling thread does with its work list. -/
inductive Operation (δ : Type)
  | insertInList (newWork : WorkItem δ)
  | addInsertInList (newWork : WorkItem δ)
  | oneMorePoll (cmds : List (PollThCmd δ)) (needed : Int)
  | executeCmd (cmd : PollThCmd δ)
  | computeSleepTime (after : Int)
  | tuneList (fromNeeded : Bool)

def perform (s : PollThread δ) : Operation δ → PollThread δ
  | .insertInList newWork => { s with works := WorkList.insertInList newWork s.works }
  | .addInsertInList newWork => { s with works := WorkList.addInsertInList cfg newWork s.works }
  | .oneMorePoll cmds needed => WorkList.oneMorePoll cfg cmds needed s
  | .executeCmd cmd => WorkList.executeCmd cfg s cmd
  | .computeSleepTime after => WorkList.computeSleepTime cfg after s
  | .tuneList fromNeeded => { s with works := WorkList.tuneList fromNeeded s.now s.works }

/-- The list is sorted, and its front is an item with the earliest date. -/
def EarliestFirst (works : List (WorkItem δ)) : Prop :=
  Sorted works ∧ ∀ front, works.head? = some front → ∀ w ∈ works, front.wakeUpDate ≤ w.wakeUpDate

omit [DecidableEq δ] in
theorem earliestFirst_iff (works : List (WorkItem δ)) : EarliestFirst works ↔ Sorted works := by
  refine and_iff_left_of_imp fun h front hf w hw => ?_
  cases works with
  | nil => cases hw
  | cons v ws =>
    injection hf with hf
    exact hf ▸ h.head_le hw

/-- Every operation leaves the list sorted, but for tuning where the last item tuned passes the
first one that is not. -/
theorem earliest_first (op : Operation δ) (ho : EarliestFirst s.works) (hu : ∀ w ∈ s.works, 0 < w.update)
    (hn : op = .tuneList true → ∀ w ∈ s.works, 0 ≤ w.neededTime) :
    EarliestFirst (perform cfg s op).works ↔ ¬(op = .tuneList true ∧ Overtakes s.now s.works) := by
  rw [earliestFirst_iff] at ho ⊢
  cases op with
  | tuneList fromNeeded =>
    cases fromNeeded with
    | true => exact (sorted_tuneList s.now ho hu (hn rfl)).trans (not_congr (and_iff_right rfl).symm)
    | false =>
      refine iff_of_true ?_ (fun h => by cases h.1)
      simpa only [perform,tuneList_sorted s.now ho] using ho
  | insertInList w => exact iff_of_true (sorted_insertInList ho w) (fun h => by cases h.1)
  | addInsertInList w => exact iff_of_true (sorted_addInsertInList cfg ho w) (fun h => by cases h.1)
  | oneMorePoll cmds needed => exact iff_of_true (sorted_oneMorePoll cfg cmds needed ho) (fun h => by cases h.1)
  | executeCmd cmd => exact iff_of_true (sorted_executeCmd cfg cmd ho) (fun h => by cases h.1)
  | computeSleepTime after => exact iff_of_true (sorted_computeSleepTime cfg after ho hu) (fun h => by cases h.1)

/-- Three commands: one polled every second, the others every ten minutes and due in 500 s. -/
def straddling : PollThread Unit :=
  ⟨[⟨some (),.pollCmd,1000 * millisecond,["State"],900 * millisecond,0⟩,
    ⟨some (),.pollCmd,600000 * millisecond,["Status"],499950 * millisecond,0⟩,
    ⟨some (),.pollCmd,600000 * millisecond,["Load"],500000 * millisecond,0⟩],
    [],0,0,[],[],false,0,none⟩

theorem straddling_earliestFirst : EarliestFirst straddling.works :=
  (earliestFirst_iff _).mpr (inOrder_iff.mpr (by decide))

theorem earliest_first_polled :
    EarliestFirst (perform ⟨fun _ => 6,false⟩ straddling (.oneMorePoll [] 3)).works :=
  (earliest_first ⟨fun _ => 6,false⟩ (.oneMorePoll [] 3) straddling_earliestFirst (by decide)
    (fun h => by cases h)).mpr (fun h => by cases h.1)

/-- The second item is moved from 499.95 s to 500.233 s, behind the third one at 500 s. -/
theorem tuned_out_of_order :
    EarliestFirst straddling.works ∧ (∀ w ∈ straddling.works, 0 < w.update ∧ 0 ≤ w.neededTime) ∧
      ((perform ⟨fun _ => 6,false⟩ straddling (.tuneList true)).works.map WorkItem.wakeUpDate) =
        [900000000,500233333333,500000000000] ∧
      ¬EarliestFirst (perform ⟨fun _ => 6,false⟩ straddling (.tuneList true)).works := by
  have hdates : (perform ⟨fun _ => 6,false⟩ straddling (.tuneList true)).works.map WorkItem.wakeUpDate =
      [900000000,500233333333,500000000000] := by decide
  refine ⟨straddling_earliestFirst,by decide,hdates,fun h => ?_⟩
  have hpairs := inOrder_iff.mp ((earliestFirst_iff _).mp h)
  rw [hdates] at hpairs
  exact absurd hpairs (by decide)

end Operations

end CppTango.Polling.WorkList
