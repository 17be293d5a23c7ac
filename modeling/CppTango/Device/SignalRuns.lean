import CppTango.Device.Signals
import Mathlib.Data.List.Count

namespace CppTango.Device.Signals

section Steps
variable {C D : Type} [DecidableEq C] [DecidableEq D] {osError : Int → Option Int} {signo : Int} {handler : Bool}
  {s : SigState C D} {h : Registrant C D}

variable (osError signo handler s h) in
theorem registerSignal_eq : ∃ origin,
    registerSignal osError signo handler s h = register osError (recordOf h) origin signo handler s := by
  cases h <;> exact ⟨_,rfl⟩

variable (osError signo s h) in
theorem unregisterSignal_eq : ∃ isRegistered origin, (∀ a, isRegistered a = true ↔ h ∈ handlers a) ∧
    unregisterSignal osError signo s h = unregister osError isRegistered (dropOf h) origin signo s := by
  cases h with
  | cls c => exact ⟨_,_,fun a => decide_eq_true_iff.trans cls_mem_handlers.symm,rfl⟩
  | dev d => exact ⟨_,_,fun a => decide_eq_true_iff.trans dev_mem_handlers.symm,rfl⟩

/-- The handlers in the system after the first registration for a signal. -/
def osFirst (signo : Int) (handler : Bool) (s : SigState C D) : Int → Disposition :=
  if autoSignal signo = false ∧ (s.regSig signo).unused = true then
    Function.update s.os signo (if handler then .direct else .enqueueing)
  else s.os

/-- And after the last one has ended. -/
def osLast (signo : Int) (h : Registrant C D) (s : SigState C D) : Int → Disposition :=
  if autoSignal signo = false ∧ (dropOf h (s.regSig signo)).unused = true then Function.update s.os signo .default
  else s.os

variable (osError signo handler s h) in
/-- What a registration can do. -/
theorem registerSignal_cases : (∃ e, registerSignal osError signo handler s h = (s,some e)) ∨
    registerSignal osError signo handler s h =
        ({ s with os := osFirst signo handler s,
                  regSig := Function.update s.regSig signo (recordOf h (s.regSig signo)) },none) ∧
      (autoSignal signo = false → (s.regSig signo).unused = true → osError signo = none) ∧
      1 ≤ signo ∧ signo < nsig := by
  obtain ⟨origin,he⟩ := registerSignal_eq osError signo handler s h
  rw [he]
  unfold register
  split
  next => exact .inl ⟨_,rfl⟩
  next hr =>
    split
    next => exact .inl ⟨_,rfl⟩
    next =>
      unfold osFirst
      by_cases hfirst : autoSignal signo = false ∧ (s.regSig signo).unused = true
      · rw [if_pos (by simp [hfirst]),if_pos hfirst]
        unfold registerHandler installSignalHandler
        cases ho : osError signo with
        | some errno => exact .inl ⟨_,rfl⟩
        | none => exact .inr ⟨rfl,fun _ _ => rfl,by omega,by omega⟩
      · rw [if_neg (by simpa using hfirst),if_neg hfirst]
        exact .inr ⟨rfl,fun h1 h2 => absurd ⟨h1,h2⟩ hfirst,by omega,by omega⟩

/-- What the end of a registration can do, for a signal that the system lets the server handle. -/
theorem unregisterSignal_cases
    (hable : autoSignal signo = false → h ∈ handlers (s.regSig signo) → osError signo = none) :
    (∃ e, (signo < 1 ∨ nsig ≤ signo) ∧ unregisterSignal osError signo s h = (s,some e)) ∨
    h ∉ handlers (s.regSig signo) ∧ unregisterSignal osError signo s h = (s,none) ∨
    (1 ≤ signo ∧ signo < nsig ∧ h ∈ handlers (s.regSig signo)) ∧ unregisterSignal osError signo s h =
      ({ dropped (dropOf h) signo s with os := osLast signo h s },none) := by
  obtain ⟨isRegistered,origin,hreg,he⟩ := unregisterSignal_eq osError signo s h
  rw [he]
  unfold unregister
  split
  next hr => exact .inl ⟨_,hr,rfl⟩
  next hr =>
    split
    next hm =>
      have hin := (hreg _).mp hm
      refine .inr (.inr ⟨⟨by omega,by omega,hin⟩,?_⟩)
      unfold osLast
      by_cases hlast : autoSignal signo = false ∧ (dropOf h (s.regSig signo)).unused = true
      · rw [if_pos (by simp [hlast]),if_pos hlast]
        unfold unregisterHandler installSignalHandler
        rw [hable hlast.1 hin]
        rfl
      · rw [if_neg (by simpa using hlast),if_neg hlast]
        rfl
    next hm => exact .inr (.inl ⟨fun h => hm ((hreg _).mpr h),rfl⟩)

/-- What was registered before is kept by a registration, and nothing but it is added. -/
theorem mem_registered {k : Int} {g : Registrant C D} :
    (g ∈ handlers (s.regSig k) → g ∈ handlers ((registerSignal osError signo handler s h).1.regSig k)) ∧
      (g ∈ handlers ((registerSignal osError signo handler s h).1.regSig k) → g ∈ handlers (s.regSig k) ∨ g = h) := by
  rcases registerSignal_cases osError signo handler s h with ⟨e,he⟩ | ⟨he,-⟩
  · rw [he]
    exact ⟨id,.inl⟩
  · rw [he]
    dsimp only
    by_cases hk : k = signo
    · subst hk
      rw [Function.update_self,mem_recordOf]
      exact ⟨.inr,Or.symm⟩
    · rw [Function.update_of_ne hk]
      exact ⟨id,.inl⟩

theorem registered_rest : (registerSignal osError signo handler s h).1.called = s.called ∧
    (registerSignal osError signo handler s h).1.signalQueue = s.signalQueue := by
  rcases registerSignal_cases osError signo handler s h with ⟨e,he⟩ | ⟨he,-⟩ <;> rw [he] <;> exact ⟨rfl,rfl⟩

theorem Installed.registered (hi : Installed osError s) (signo : Int) (handler : Bool) (h : Registrant C D) :
    Installed osError (registerSignal osError signo handler s h).1 := by
  rcases registerSignal_cases osError signo handler s h with ⟨e,he⟩ | ⟨he,hfirst,hrange⟩
  · rw [he]
    exact hi
  · rw [he]
    have hself : h ∈ handlers (recordOf h (s.regSig signo)) := mem_recordOf.mpr (.inl rfl)
    refine ⟨fun k hk => ?_,fun k hk => ?_,fun k => ?_,fun k hk hne => ?_,fun k hne => ?_⟩
    · dsimp only [osFirst]
      split
      next hf =>
        rw [Function.update_of_ne (fun he => ?_)]
        · exact hi.auto k hk
        · rw [he,hf.1] at hk
          cases hk
      next => exact hi.auto k hk
    · dsimp only [osFirst]
      by_cases hks : k = signo
      · subst hks
        rw [Function.update_self]
        refine iff_of_false ?_ (List.ne_nil_of_mem hself)
        split
        next =>
          rw [Function.update_self]
          split <;> exact nofun
        next hf =>
          rw [hi.used k hk,← unused_iff]
          exact fun hu => hf ⟨hk,hu⟩
      · rw [Function.update_of_ne hks]
        split
        next =>
          rw [Function.update_of_ne hks]
          exact hi.used k hk
        next => exact hi.used k hk
    · dsimp only
      by_cases hks : k = signo
      · subst hks
        rw [Function.update_self]
        exact nodup_recordOf (hi.once k)
      · rw [Function.update_of_ne hks]
        exact hi.once k
    · dsimp only at hne
      by_cases hks : k = signo
      · subst hks
        cases hu : (s.regSig k).unused with
        | true => exact hfirst hk hu
        | false =>
          refine hi.able k hk (fun hnil => ?_)
          rw [unused_iff.mpr hnil] at hu
          cases hu
      · rw [Function.update_of_ne hks] at hne
        exact hi.able k hk hne
    · dsimp only at hne
      by_cases hks : k = signo
      · rw [hks]
        exact hrange
      · rw [Function.update_of_ne hks] at hne
        exact hi.known k hne

theorem Installed.unregister_cases (hi : Installed osError s) (signo : Int) (h : Registrant C D) :
    (∃ e, (signo < 1 ∨ nsig ≤ signo) ∧ unregisterSignal osError signo s h = (s,some e)) ∨
    h ∉ handlers (s.regSig signo) ∧ unregisterSignal osError signo s h = (s,none) ∨
    (1 ≤ signo ∧ signo < nsig ∧ h ∈ handlers (s.regSig signo)) ∧ unregisterSignal osError signo s h =
      ({ dropped (dropOf h) signo s with os := osLast signo h s },none) :=
  unregisterSignal_cases (fun ha hm => hi.able signo ha (List.ne_nil_of_mem hm))

theorem Installed.mem_unregistered (hi : Installed osError s) {signo k : Int} {h g : Registrant C D} :
    g ∈ handlers ((unregisterSignal osError signo s h).1.regSig k) ↔
      g ∈ handlers (s.regSig k) ∧ ¬(g = h ∧ k = signo ∧ 1 ≤ signo ∧ signo < nsig) := by
  rcases hi.unregister_cases signo h with ⟨e,hr,he⟩ | ⟨hm,he⟩ | ⟨⟨h1,h2,-⟩,he⟩
  · rw [he]
    exact (and_iff_left (fun hx => by omega)).symm
  · rw [he]
    refine (and_iff_left_of_imp (fun hg hx => hm ?_)).symm
    rw [← hx.1,← hx.2.1]
    exact hg
  · rw [he]
    dsimp only [dropped]
    by_cases hk : k = signo
    · subst hk
      rw [Function.update_self,mem_dropOf (hi.once k)]
      exact ⟨fun hx => ⟨hx.2,fun hy => hx.1 hy.1⟩,fun hx => ⟨fun hy => hx.2 ⟨hy,rfl,h1,h2⟩,hx.1⟩⟩
    · rw [Function.update_of_ne hk]
      exact (and_iff_left (fun hx => hk hx.2.1)).symm

/-- For a signal of the system there is no exception. -/
theorem Installed.unregistered_ok (hi : Installed osError s) {signo : Int} (h1 : 1 ≤ signo) (h2 : signo < nsig)
    (h : Registrant C D) : (unregisterSignal osError signo s h).2 = none := by
  rcases hi.unregister_cases signo h with ⟨e,hr,-⟩ | ⟨-,he⟩ | ⟨-,he⟩
  · omega
  · rw [he]
  · rw [he]

theorem Installed.unregistered_rest (hi : Installed osError s) (signo : Int) (h : Registrant C D) :
    (unregisterSignal osError signo s h).1.called = s.called ∧
      (unregisterSignal osError signo s h).1.signalQueue = s.signalQueue := by
  rcases hi.unregister_cases signo h with ⟨e,-,he⟩ | ⟨-,he⟩ | ⟨-,he⟩ <;> rw [he] <;> exact ⟨rfl,rfl⟩

theorem Installed.unregistered (hi : Installed osError s) (signo : Int) (h : Registrant C D) :
    Installed osError (unregisterSignal osError signo s h).1 := by
  rcases hi.unregister_cases signo h with ⟨e,-,he⟩ | ⟨-,he⟩ | ⟨⟨-,-,hm⟩,he⟩
  · rw [he]
    exact hi
  · rw [he]
    exact hi
  · rw [he]
    refine ⟨fun k hk => ?_,fun k hk => ?_,fun k => ?_,fun k hk hne => ?_,fun k hne => ?_⟩
    · dsimp only [osLast]
      split
      next hl =>
        rw [Function.update_of_ne (fun he => ?_)]
        · exact hi.auto k hk
        · rw [he,hl.1] at hk
          cases hk
      next => exact hi.auto k hk
    · dsimp only [osLast,dropped]
      by_cases hks : k = signo
      · subst hks
        rw [Function.update_self]
        split
        next hl =>
          rw [Function.update_self]
          exact iff_of_true rfl (unused_iff.mp hl.2)
        next hl =>
          rw [hi.used k hk]
          exact iff_of_false (List.ne_nil_of_mem hm) (fun hnil => hl ⟨hk,unused_iff.mpr hnil⟩)
      · rw [Function.update_of_ne hks]
        split
        next =>
          rw [Function.update_of_ne hks]
          exact hi.used k hk
        next => exact hi.used k hk
    · dsimp only [dropped]
      by_cases hks : k = signo
      · subst hks
        rw [Function.update_self]
        exact nodup_dropOf (hi.once k)
      · rw [Function.update_of_ne hks]
        exact hi.once k
    · by_cases hks : k = signo
      · subst hks
        exact hi.able k hk (List.ne_nil_of_mem hm)
      · dsimp only [dropped] at hne
        rw [Function.update_of_ne hks] at hne
        exact hi.able k hk hne
    · by_cases hks : k = signo
      · rw [hks]
        exact hi.known signo (List.ne_nil_of_mem hm)
      · dsimp only [dropped] at hne
        rw [Function.update_of_ne hks] at hne
        exact hi.known k hne

/-- The forms for all signals end without an exception, and then nothing is left of the registrant. -/
theorem Installed.unregisteredAll {is : List Int} (hi : Installed osError s)
    (hr : ∀ i ∈ is, 1 ≤ i ∧ i < nsig) (h : Registrant C D) :
    (unregisterAll osError h s is).2 = none ∧ Installed osError (unregisterAll osError h s is).1 ∧
      (∀ k g, g ∈ handlers ((unregisterAll osError h s is).1.regSig k) ↔
        g ∈ handlers (s.regSig k) ∧ ¬(g = h ∧ k ∈ is)) ∧
      (unregisterAll osError h s is).1.called = s.called ∧
      (unregisterAll osError h s is).1.signalQueue = s.signalQueue := by
  induction is generalizing s with
  | nil => exact ⟨rfl,hi,fun k g => (and_iff_left (fun hx => List.not_mem_nil hx.2)).symm,rfl,rfl⟩
  | cons i is ih =>
    obtain ⟨h1,h2⟩ := hr i List.mem_cons_self
    have hok := hi.unregistered_ok h1 h2 h
    obtain ⟨hcalled,hqueue⟩ := hi.unregistered_rest i h
    obtain ⟨hrest,hi',hmem,hcalled',hqueue'⟩ := ih (hi.unregistered i h) (fun j hj => hr j (List.mem_cons_of_mem i hj))
    have he : unregisterAll osError h s (i :: is) = unregisterAll osError h (unregisterSignal osError i s h).1 is := by
      rw [unregisterAll]
      cases hu : unregisterSignal osError i s h with
      | mk t o =>
        rw [hu] at hok
        cases hok
        rfl
    rw [he]
    refine ⟨hrest,hi',fun k g => ?_,hcalled'.trans hcalled,hqueue'.trans hqueue⟩
    rw [hmem,hi.mem_unregistered,List.mem_cons]
    constructor
    · rintro ⟨⟨hg,hne⟩,hn⟩
      exact ⟨hg,fun hx => hx.2.elim (fun hk => hne ⟨hx.1,hk,h1,h2⟩) (fun hk => hn ⟨hx.1,hk⟩)⟩
    · rintro ⟨hg,hn⟩
      exact ⟨⟨hg,fun hx => hn ⟨hx.1,.inl hx.2.1⟩⟩,fun hx => hn ⟨hx.1,.inr hx.2⟩⟩

theorem mem_signals {i : Int} : i ∈ signals ↔ 1 ≤ i ∧ i < nsig := by
  unfold signals nsig
  rw [List.mem_map]
  constructor
  · rintro ⟨n,hn,rfl⟩
    have := List.mem_range.mp hn
    omega
  · rintro ⟨h1,h2⟩
    exact ⟨(i - 1).toNat,List.mem_range.mpr (by omega),by omega⟩

theorem Installed.step (hi : Installed osError s) (a : Act C D) : Installed osError (step osError s a) := by
  cases a with
  | register signo handler h => exact hi.registered signo handler h
  | unregister signo h => exact hi.unregistered signo h
  | unregisterAll h => exact (hi.unregisteredAll (fun i hm => mem_signals.mp hm) h).2.1
  | raise signo => exact hi.of_same arrive_same.1 arrive_same.2
  | thread => exact hi.of_same threadTurn_same.1 threadTurn_same.2
  | destroy => exact hi.of_same rfl rfl

theorem Installed.run (hi : Installed osError s) (acts : List (Act C D)) :
    Installed osError (acts.foldl (Signals.step osError) s) := by
  induction acts generalizing s with
  | nil => exact hi
  | cons a acts ih => exact ih (hi.step a)

end Steps

section Runs
variable {C D : Type} [DecidableEq C] [DecidableEq D] {osError : Int → Option Int} {signo : Int}
  {s start : SigState C D} {h : Registrant C D}

omit [DecidableEq C] [DecidableEq D] in
theorem initialise_ok {signums : List Int} (hok : (initialise osError s signums).2 = none) :
    (initialise osError s signums).1 =
      { s with os := fun k => if k ∈ signums then .enqueueing else s.os k } := by
  induction signums generalizing s with
  | nil =>
    rw [initialise]
    simp
  | cons signum signums ih =>
    rw [initialise] at hok ⊢
    unfold registerHandler installSignalHandler at hok ⊢
    cases ho : osError signum with
    | some errno =>
      rw [ho] at hok
      cases hok
    | none =>
      rw [ho] at hok
      dsimp only at hok ⊢
      rw [ih hok]
      congr 1
      funext k
      by_cases hk : k = signum
      · subst hk
        simp
      · simp [hk]

omit [DecidableEq C] [DecidableEq D] in
theorem started_installed (h0 : started osError = (start,none)) : Installed osError start := by
  have hok := initialise_ok (congrArg Prod.snd h0)
  unfold started at h0
  rw [h0] at hok
  dsimp only at hok
  have hmem : ∀ k, k ∈ signalsToHandle ↔ autoSignal k = true := by
    intro k
    simp [signalsToHandle,autoSignal,or_assoc]
  rw [hok]
  refine ⟨fun k hk => if_pos ((hmem k).mpr hk),fun k hk => ?_,fun k => List.nodup_nil,
    fun k _ hne => absurd rfl hne,fun k hne => absurd rfl hne⟩
  refine iff_of_true (if_neg (fun hm => ?_)) rfl
  rw [(hmem k).mp hm] at hk
  cases hk

omit [DecidableEq C] [DecidableEq D] in
theorem started_called (h0 : started osError = (start,none)) : start.called = [] := by
  have hok := initialise_ok (congrArg Prod.snd h0)
  exact (congrArg SigState.called (congrArg Prod.fst h0)).symm.trans (congrArg SigState.called hok)

/-- The thread steps over `SIGHUP`, which no handler of the system delivers at once. -/
theorem sigHup_step (hi : Installed osError s) (hn : ∀ g, (sigHup,g) ∉ s.called) (a : Act C D) (g : Registrant C D) :
    (sigHup,g) ∉ (step osError s a).called := by
  have hdeliver : ∀ (k : Int) (t : SigState C D), k ≠ sigHup → t.called = s.called →
      (sigHup,g) ∉ (deliverToRegisteredHandlers k t).called := by
    intro k t hk ht
    dsimp only [deliverToRegisteredHandlers]
    rw [ht,List.mem_append,not_or]
    refine ⟨hn g,fun hm => ?_⟩
    obtain ⟨g',-,he⟩ := List.mem_map.mp hm
    exact hk (congrArg Prod.fst he)
  cases a with
  | register k handler h =>
    dsimp only [step]
    rw [registered_rest.1]
    exact hn g
  | unregister k h =>
    dsimp only [step]
    rw [(hi.unregistered_rest k h).1]
    exact hn g
  | unregisterAll h =>
    dsimp only [step]
    rw [(hi.unregisteredAll (fun i hm => mem_signals.mp hm) h).2.2.2.1]
    exact hn g
  | raise k =>
    dsimp only [step]
    unfold arrive
    split
    next => exact hn g
    next => exact hn g
    next hos =>
      refine hdeliver k s (fun hk => ?_) rfl
      rw [hk,hi.auto sigHup (by decide)] at hos
      cases hos
  | thread =>
    dsimp only [step]
    unfold threadTurn
    split
    next => exact hn g
    next =>
      split
      next => exact hn g
      next k queue _ =>
        split
        next => exact hn g
        next =>
          split
          next => exact hn g
          next hk =>
            split
            · exact hdeliver k { s with signalQueue := queue } hk rfl
            · exact hdeliver k { s with signalQueue := queue } hk rfl
  | destroy => exact hn g

theorem sigHup_run (hi : Installed osError s) (hn : ∀ g, (sigHup,g) ∉ s.called) (acts : List (Act C D)) :
    ∀ g, (sigHup,g) ∉ (acts.foldl (step osError) s).called := by
  induction acts generalizing s with
  | nil => exact hn
  | cons a acts ih => exact ih (hi.step a) (fun g => sigHup_step hi hn a g)

/-- In every run the system hands a signal to the server exactly when it is an automatic one or somebody is
registered for it, once; no handler runs for `SIGHUP`; and whoever ends all of its registrations, as a destructor
does, does so without an exception and is registered for nothing then. -/
theorem handler_while_registered (h0 : started osError = (start,none)) (acts : List (Act C D)) :
    let s := acts.foldl (step osError) start
    (∀ signo, s.os signo ≠ .default ↔ autoSignal signo = true ∨ handlers (s.regSig signo) ≠ []) ∧
      (∀ signo, (handlers (s.regSig signo)).Nodup) ∧ (∀ h, (sigHup,h) ∉ s.called) ∧
      ∀ h, (unregisterAll osError h s signals).2 = none ∧
        ∀ signo, h ∉ handlers ((unregisterAll osError h s signals).1.regSig signo) := by
  intro s
  have hi : Installed osError s := (started_installed h0).run acts
  refine ⟨fun signo => ?_,hi.once,?_,fun h => ?_⟩
  · cases ha : autoSignal signo with
    | true =>
      rw [hi.auto signo ha]
      exact iff_of_true nofun (.inl rfl)
    | false =>
      rw [Ne,hi.used signo ha]
      exact (or_iff_right Bool.false_ne_true).symm
  · refine sigHup_run (started_installed h0) (fun g => ?_) acts
    rw [started_called h0]
    exact List.not_mem_nil
  · obtain ⟨hok,hi',hmem,-⟩ := hi.unregisteredAll (fun i hm => mem_signals.mp hm) h
    refine ⟨hok,fun signo hin => ?_⟩
    have hk := hi'.known signo (List.ne_nil_of_mem hin)
    exact ((hmem signo h).mp hin).2 ⟨rfl,mem_signals.mpr hk⟩

/-- A system in which `SIGKILL` cannot be handled. -/
def sampleError (signo : Int) : Option Int := if signo = 9 then some 22 else none

/-- A class and then a device are registered for `SIGUSR1`, which comes twice. -/
def sampleActs : List (Act String String) :=
  [.register 9 false (.dev "sys/motor/1"),.register 10 false (.cls "Motor"),.raise 10,
    .register 10 true (.dev "sys/motor/1"),.raise 10]

def sampleStart : SigState String String := (started sampleError).1

theorem sample_handlers :
    let s := sampleActs.foldl (step sampleError) sampleStart
    (∀ signo, s.os signo ≠ .default ↔ autoSignal signo = true ∨ handlers (s.regSig signo) ≠ []) ∧
      (∀ signo, (handlers (s.regSig signo)).Nodup) ∧ (∀ h, (sigHup,h) ∉ s.called) ∧
      ∀ h, (unregisterAll sampleError h s signals).2 = none ∧
        ∀ signo, h ∉ handlers ((unregisterAll sampleError h s signals).1.regSig signo) :=
  handler_while_registered (Prod.ext rfl rfl) sampleActs

/-- How often a registrant was called for a signal. -/
def calls (signo : Int) (h : Registrant C D) (s : SigState C D) : Nat := s.called.count (signo,h)

/-- How often a signal is in the queue. -/
def pending (signo : Int) (s : SigState C D) : Nat := s.signalQueue.count signo

/-- The steps that end a registration. -/
def endsIt (signo : Int) (h : Registrant C D) : Act C D → Bool
  | .unregister k g => decide (k = signo) && decide (g = h)
  | .unregisterAll g => decide (g = h)
  | _ => false

theorem calls_delivered (hn : (handlers (s.regSig signo)).Nodup) (hh : h ∈ handlers (s.regSig signo)) :
    calls signo h (deliverToRegisteredHandlers signo s) = calls signo h s + 1 := by
  unfold calls deliverToRegisteredHandlers
  rw [List.count_append,List.count_map_of_injective _ _ (fun _ _ he => congrArg Prod.snd he),
    List.count_eq_one_of_mem hn hh]

theorem calls_not_delivered {k : Int} (hn : k = signo → h ∉ handlers (s.regSig k)) :
    calls signo h (deliverToRegisteredHandlers k s) = calls signo h s := by
  unfold calls deliverToRegisteredHandlers
  have hz : ((handlers (s.regSig k)).map (fun g => (k,g))).count (signo,h) = 0 := by
    refine List.count_eq_zero_of_not_mem (fun hm => ?_)
    obtain ⟨g,hg,he⟩ := List.mem_map.mp hm
    obtain ⟨hk,rfl⟩ := Prod.mk.inj he
    exact hn hk hg
  dsimp only
  rw [List.count_append,hz]
  rfl

/-- A registrant that stays registered does so. -/
theorem stays_registered (hi : Installed osError s) (hh : h ∈ handlers (s.regSig signo)) {a : Act C D}
    (ha : endsIt signo h a = false) : h ∈ handlers ((step osError s a).regSig signo) := by
  cases a with
  | register k handler g => exact mem_registered.1 hh
  | unregister k g =>
    refine hi.mem_unregistered.mpr ⟨hh,fun hx => ?_⟩
    simp [endsIt,hx.1,hx.2.1] at ha
  | unregisterAll g =>
    refine ((hi.unregisteredAll (fun i hm => mem_signals.mp hm) g).2.2.1 signo h).mpr ⟨hh,fun hx => ?_⟩
    simp [endsIt,hx.1] at ha
  | raise k =>
    dsimp only [step]
    rw [arrive_same.2]
    exact hh
  | thread =>
    dsimp only [step]
    rw [threadTurn_same.2]
    exact hh
  | destroy => exact hh

/-- A signal that is raised is called for or is in the queue, and one from the queue is called for. -/
theorem raised_step (hi : Installed osError s) (hh : h ∈ handlers (s.regSig signo)) (hne : signo ≠ sigHup)
    (a : Act C D) :
    calls signo h (step osError s a) + pending signo (step osError s a) =
      calls signo h s + pending signo s + if a = .raise signo then 1 else 0 := by
  have hpos := hi.known signo (List.ne_nil_of_mem hh)
  cases a with
  | register k handler g =>
    dsimp only [step,calls,pending]
    rw [registered_rest.1,registered_rest.2,if_neg nofun]
    rfl
  | unregister k g =>
    dsimp only [step,calls,pending]
    rw [(hi.unregistered_rest k g).1,(hi.unregistered_rest k g).2,if_neg nofun]
    rfl
  | unregisterAll g =>
    obtain ⟨-,-,-,hcalled,hqueue⟩ := hi.unregisteredAll (fun i hm => mem_signals.mp hm) g
    dsimp only [step,calls,pending]
    rw [hcalled,hqueue,if_neg nofun]
    rfl
  | raise k =>
    have heq : (Act.raise k : Act C D) = .raise signo ↔ k = signo := ⟨Act.raise.inj,congrArg _⟩
    dsimp only [step]
    unfold arrive
    split
    next hos =>
      have hk : ¬ (Act.raise k : Act C D) = .raise signo := by
        intro he
        rw [heq.mp he] at hos
        cases ha : autoSignal signo with
        | true => cases (hi.auto signo ha).symm.trans hos
        | false => exact List.ne_nil_of_mem hh ((hi.used signo ha).mp hos)
      rw [if_neg hk]
      rfl
    next =>
      dsimp only [calls,pending]
      rw [List.count_append,List.count_singleton,Nat.add_assoc]
      simp only [heq,beq_iff_eq]
    next =>
      have hp : pending signo (deliverToRegisteredHandlers k s) = pending signo s := rfl
      rw [hp]
      by_cases hk : k = signo
      · subst hk
        rw [calls_delivered (hi.once k) hh,if_pos rfl,Nat.add_right_comm]
      · rw [calls_not_delivered (fun he => absurd he hk),if_neg (fun he => hk (heq.mp he))]
        rfl
  | thread =>
    rw [if_neg nofun]
    dsimp only [step]
    unfold threadTurn
    split
    next => rfl
    next =>
      split
      next => rfl
      next k queue hq =>
        have hcount : pending signo s = queue.count signo + if k = signo then 1 else 0 := by
          unfold pending
          rw [hq,List.count_cons]
          simp only [beq_iff_eq]
        have hdeliver : calls signo h (deliverToRegisteredHandlers k { s with signalQueue := queue }) +
            queue.count signo = calls signo h s + pending signo s + 0 := by
          have hc : calls signo h { s with signalQueue := queue } = calls signo h s := rfl
          by_cases hk : k = signo
          · subst hk
            rw [calls_delivered (s := { s with signalQueue := queue }) (hi.once k) hh,hc,hcount,if_pos rfl]
            omega
          · rw [calls_not_delivered (fun he => absurd he hk),hc,hcount,if_neg hk]
            rfl
        have hskip : k ≠ signo → calls signo h s + queue.count signo = calls signo h s + pending signo s + 0 := by
          intro hk
          rw [hcount,if_neg hk]
          rfl
        split
        next hk =>
          refine hskip (fun he => ?_)
          rw [← he,hk] at hpos
          exact absurd hpos.1 (by decide)
        next =>
          split
          next hk => exact hskip (fun he => hne (he.symm.trans hk))
          next =>
            split
            next => exact hdeliver
            next => exact hdeliver
  | destroy =>
    rw [if_neg nofun]
    dsimp only [step,calls,pending]
    rw [List.count_append,List.count_singleton]
    have hstop : (stopSignalThread == signo) = false := by
      rw [beq_eq_false_iff_ne]
      rintro rfl
      exact absurd hpos.1 (by decide)
    rw [hstop]
    rfl

def registersIt (h : Registrant C D) : Act C D → Bool
  | .register _ _ g => decide (g = h)
  | _ => false

variable (signo) in
/-- Nobody calls who is registered for nothing, and that stays so. -/
theorem silent_step (hi : Installed osError s) (hn : ∀ k, h ∉ handlers (s.regSig k)) {a : Act C D}
    (ha : registersIt h a = false) :
    calls signo h (step osError s a) = calls signo h s ∧ ∀ k, h ∉ handlers ((step osError s a).regSig k) := by
  cases a with
  | register k handler g =>
    refine ⟨?_,fun j hj => ?_⟩
    · dsimp only [step,calls]
      rw [registered_rest.1]
    · rcases mem_registered.2 hj with hj | hj
      · exact hn j hj
      · simp [registersIt,hj] at ha
  | unregister k g =>
    refine ⟨?_,fun j hj => hn j (hi.mem_unregistered.mp hj).1⟩
    dsimp only [step,calls]
    rw [(hi.unregistered_rest k g).1]
  | unregisterAll g =>
    obtain ⟨-,-,hmem,hcalled,-⟩ := hi.unregisteredAll (fun i hm => mem_signals.mp hm) g
    refine ⟨?_,fun j hj => hn j ((hmem j h).mp hj).1⟩
    dsimp only [step,calls]
    rw [hcalled]
  | raise k =>
    dsimp only [step]
    rw [arrive_same.2]
    refine ⟨?_,hn⟩
    unfold arrive
    split
    next => rfl
    next => rfl
    next => exact calls_not_delivered (fun _ => hn k)
  | thread =>
    dsimp only [step]
    rw [threadTurn_same.2]
    refine ⟨?_,hn⟩
    unfold threadTurn
    split
    next => rfl
    next =>
      split
      next => rfl
      next k queue _ =>
        have hdeliver : calls signo h (deliverToRegisteredHandlers k { s with signalQueue := queue }) =
            calls signo h s :=
          calls_not_delivered (s := { s with signalQueue := queue }) (fun _ => hn k)
        repeat' split
        all_goals first
          | rfl
          | exact hdeliver
  | destroy => exact ⟨rfl,hn⟩

end Runs

end CppTango.Device.Signals
