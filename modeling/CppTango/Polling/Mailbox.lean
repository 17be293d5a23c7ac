import CppTango.Polling.Thread
import Mathlib.Data.List.Perm.Basic

namespace CppTango.Polling.Mailbox

inductive PollCmdCode
  | pollAddObj | pollRemObj | pollRemExtTrigObj | pollUpdPeriod | pollStart | pollStop
deriving DecidableEq, Repr

/-- The slot shared by the polling thread and those who send it requests. -/
structure PollThCmd (δ : Type) where
  cmdPending : Bool
  trigger : Bool
  cmdCode : PollCmdCode
  dev : δ
  index : Nat
  name : String
  type : PollObjType
  newUpd : Nat
deriving DecidableEq, Repr

/-- A request with the fields its sender stores, which are the ones its execution reads. -/
inductive Request (δ : Type)
  | addObj (dev : δ) (index newUpd : Nat)
  | updPeriod (dev : δ) (name : String) (type : PollObjType) (newUpd index : Nat)
  | remObj (dev : δ) (name : String) (type : PollObjType)
  | remExtTrigObj (dev : δ) (name : String) (type : PollObjType)
  | start
  | stop
  | trigg (dev : δ) (name : String) (type : PollObjType)
deriving DecidableEq, Repr

variable {δ : Type}

def Request.isTrigg : Request δ → Bool
  | .trigg _ _ _ => true
  | _ => false

/-- Starting and stopping say nothing about an object. -/
def Request.hasObject : Request δ → Bool
  | .start | .stop => false
  | _ => true

def Request.store (r : Request δ) (c : PollThCmd δ) : PollThCmd δ :=
  match r with
  | .addObj dev index upd =>
    { c with cmdPending := true, cmdCode := .pollAddObj, dev := dev, index := index, newUpd := upd }
  | .updPeriod dev name type upd index =>
    { c with cmdPending := true, cmdCode := .pollUpdPeriod, dev := dev, name := name, type := type,
             newUpd := upd, index := index }
  | .remObj dev name type =>
    { c with cmdPending := true, cmdCode := .pollRemObj, dev := dev, name := name, type := type }
  | .remExtTrigObj dev name type =>
    { c with cmdPending := true, cmdCode := .pollRemExtTrigObj, dev := dev, name := name, type := type }
  | .start => { c with cmdPending := true, cmdCode := .pollStart }
  | .stop => { c with cmdPending := true, cmdCode := .pollStop }
  | .trigg dev name type => { c with trigger := true, dev := dev, name := name, type := type }

/-- The flag its sender looks at before it stores a request. -/
def Request.flagged (r : Request δ) (c : PollThCmd δ) : Bool :=
  if r.isTrigg then c.trigger else c.cmdPending

/-- What `execute_cmd` makes of a copy of the slot. -/
def PollThCmd.command (c : PollThCmd δ) : Request δ :=
  match c.cmdCode with
  | .pollAddObj => .addObj c.dev c.index c.newUpd
  | .pollRemObj => .remObj c.dev c.name c.type
  | .pollRemExtTrigObj => .remExtTrigObj c.dev c.name c.type
  | .pollUpdPeriod => .updPeriod c.dev c.name c.type c.newUpd c.index
  | .pollStart => .start
  | .pollStop => .stop

/-- What `one_more_trigg` makes of a copy of the slot. -/
def PollThCmd.trigged (c : PollThCmd δ) : Request δ := .trigg c.dev c.name c.type

/-- Where the polling thread is: at `get_command`, in `one_more_poll`, or executing its copy
of the slot. -/
inductive Phase (δ : Type)
  | waiting
  | polling
  | command (localCmd : PollThCmd δ)
  | trigg (localCmd : PollThCmd δ)
deriving DecidableEq, Repr

structure State (δ : Type) where
  shared : PollThCmd δ
  phase : Phase δ := .waiting
  /-- senders that found their flag set and wait on the monitor -/
  blocked : List (Request δ) := []
  /-- those of them a signal has reached -/
  woken : List (Request δ) := []
  stored : List (Request δ) := []
  executed : List (Request δ) := []
deriving DecidableEq, Repr

/-- `mon.signal()` reaches one waiter, or one that does not wait to store a request. -/
def signal (wake : Option Nat) (s : State δ) : State δ :=
  match wake.bind (fun i => s.blocked[i]?) with
  | none => s
  | some r => { s with blocked := s.blocked.eraseIdx (wake.getD 0), woken := s.woken ++ [r] }

def put (r : Request δ) (s : State δ) : State δ :=
  { s with shared := r.store s.shared, stored := s.stored ++ [r] }

/-- `if(flag) wait` and the store, which a woken sender does without another look. -/
def enter (r : Request δ) (wake : Option Nat) (s : State δ) : State δ :=
  if r.flagged s.shared then { s with blocked := s.blocked ++ [r] } else signal wake (put r s)

def resume (i : Nat) (wake : Option Nat) (s : State δ) : State δ :=
  match s.woken[i]? with
  | none => s
  | some r => signal wake (put r { s with woken := s.woken.eraseIdx i })

/-- A request of the polling thread itself, stored without the lock and executed at once. -/
def own (r : Request δ) (wake : Option Nat) (s : State δ) : State δ :=
  let shared := r.store s.shared
  signal wake { s with
    shared := { shared with cmdPending := false }
    stored := s.stored ++ [r]
    executed := s.executed ++ [shared.command] }

def getCommand (s : State δ) : State δ :=
  if s.shared.cmdPending then { s with phase := .command s.shared }
  else if s.shared.trigger then { s with phase := .trigg s.shared }
  else { s with phase := .polling }

/-- The end of `execute_cmd`, of `one_more_trigg` or of `one_more_poll`. -/
def finish (wake : Option Nat) (s : State δ) : State δ :=
  match s.phase with
  | .waiting => s
  | .polling => { s with phase := .waiting }
  | .command c => signal wake { s with
      phase := .waiting
      executed := s.executed ++ [c.command]
      shared := { s.shared with cmdPending := false } }
  | .trigg c => signal wake { s with
      phase := .waiting
      executed := s.executed ++ [c.trigged]
      shared := { s.shared with trigger := false } }

inductive Action (δ : Type)
  | enter (r : Request δ) (wake : Option Nat)
  | resume (i : Nat) (wake : Option Nat)
  | own (r : Request δ) (wake : Option Nat)
  | getCommand
  | finish (wake : Option Nat)
deriving DecidableEq, Repr

def step (a : Action δ) (s : State δ) : State δ :=
  match a with
  | .enter r wake => enter r wake s
  | .resume i wake => resume i wake s
  | .own r wake => own r wake s
  | .getCommand => getCommand s
  | .finish wake => finish wake s

def run (s : State δ) (acts : List (Action δ)) : State δ := acts.foldl (fun s a => step a s) s

/-- The thread sends itself commands about objects, from the code it is polling. -/
def Legal (s : State δ) : Action δ → Prop
  | .enter _ _ => True
  | .resume i _ => i < s.woken.length
  | .own r _ => r.isTrigg = false ∧ r.hasObject = true ∧
      (s.phase = .polling ∨ ∃ c, s.phase = .trigg c)
  | .getCommand => s.phase = .waiting
  | .finish _ => s.phase ≠ .waiting

/-- A command of the slot the thread has not copied yet. -/
def freshCommand (s : State δ) : Bool :=
  match s.phase with
  | .command _ => false
  | _ => s.shared.cmdPending

def freshTrigger (s : State δ) : Bool :=
  match s.phase with
  | .trigg _ => false
  | _ => s.shared.trigger

/-- Storing a request disturbs no other: its own flag is clear, and no request of the other
kind still needs the object the slot names. -/
def Free (r : Request δ) (s : State δ) : Prop :=
  r.flagged s.shared = false ∧
    if r.isTrigg then freshCommand s = true → s.shared.command.hasObject = false
    else freshTrigger s = true → r.hasObject = false

/-- When a step leaves every request as its sender stored it. -/
def Clean (s : State δ) : Action δ → Prop
  | .enter r _ => r.flagged s.shared = true ∨ Free r s
  | .resume i _ => ∀ r, s.woken[i]? = some r → Free r s
  | .own r _ => Free r s
  | _ => True

def pendingCommand (s : State δ) : List (Request δ) :=
  match s.phase with
  | .command c => [c.command]
  | _ => if s.shared.cmdPending then [s.shared.command] else []

def pendingTrigger (s : State δ) : List (Request δ) :=
  match s.phase with
  | .trigg c => [c.trigged]
  | _ => if s.shared.trigger then [s.shared.trigged] else []

def triggers (rs : List (Request δ)) : List (Request δ) := rs.filter Request.isTrigg

def commands (rs : List (Request δ)) : List (Request δ) := rs.filter (fun r => !r.isTrigg)

/-- Commands and triggers each come out in the order they went in. -/
structure Inv (s : State δ) : Prop where
  commands : commands s.executed ++ pendingCommand s = commands s.stored
  triggers : triggers s.executed ++ pendingTrigger s = triggers s.stored
  fetchedCommand : ∀ c, s.phase = .command c → s.shared.cmdPending = true
  fetchedTrigger : ∀ c, s.phase = .trigg c → s.shared.trigger = true

@[simp] theorem command_not_trigg (c : PollThCmd δ) : c.command.isTrigg = false := by
  unfold PollThCmd.command
  split <;> rfl

theorem inv_signal (h : Inv s) (wake : Option Nat) : Inv (signal wake s) := by
  unfold signal
  split
  · exact h
  · exact { h with }

theorem inv_start (shared : PollThCmd δ) (hc : shared.cmdPending = false)
    (ht : shared.trigger = false) : Inv { shared := shared } where
  commands := by simp [commands,pendingCommand,hc]
  triggers := by simp [triggers,pendingTrigger,ht]
  fetchedCommand := by intro c h; cases h
  fetchedTrigger := by intro c h; cases h

section Store
variable {r : Request δ}

theorem store_command (h : r.isTrigg = false) (c : PollThCmd δ) :
    (r.store c).command = r ∧ (r.store c).cmdPending = true ∧ (r.store c).trigger = c.trigger := by
  cases r with
  | trigg dev name type => cases h
  | _ => exact ⟨rfl,rfl,rfl⟩

theorem store_bare (h : r.hasObject = false) (c : PollThCmd δ) : (r.store c).trigged = c.trigged := by
  cases r with
  | start => rfl
  | stop => rfl
  | _ => cases h

theorem store_trigger (h : r.isTrigg = true) (c : PollThCmd δ) :
    (r.store c).trigged = r ∧ (r.store c).trigger = true ∧ (r.store c).cmdPending = c.cmdPending ∧
      (c.command.hasObject = false → (r.store c).command = c.command) := by
  cases r with
  | trigg dev name type =>
    refine ⟨rfl,rfl,rfl,?_⟩
    intro hb
    unfold PollThCmd.command at hb ⊢
    simp only [Request.store]
    split at hb <;> first | rfl | cases hb
  | _ => cases h

end Store

theorem no_pending_trigger (h : Inv s) (ht : s.shared.trigger = false) : pendingTrigger s = [] := by
  unfold pendingTrigger
  split
  · rename_i c hp
    rw [h.fetchedTrigger c hp] at ht
    cases ht
  · rw [ht]
    rfl

theorem no_pending_command (h : Inv s) (hc : s.shared.cmdPending = false) :
    pendingCommand s = [] := by
  unfold pendingCommand
  split
  · rename_i c hp
    rw [h.fetchedCommand c hp] at hc
    cases hc
  · rw [hc]
    rfl

theorem commands_snoc (rs : List (Request δ)) (r : Request δ) :
    commands (rs ++ [r]) = commands rs ++ if r.isTrigg then [] else [r] := by
  cases h : r.isTrigg <;> simp [commands,h]

theorem triggers_snoc (rs : List (Request δ)) (r : Request δ) :
    triggers (rs ++ [r]) = triggers rs ++ if r.isTrigg then [r] else [] := by
  cases h : r.isTrigg <;> simp [triggers,h]

/-- A trigger waiting to be copied survives the store of a command that leaves its object. -/
theorem pending_trigger_kept {s s' : State δ} (hp : s'.phase = s.phase)
    (ht : s'.shared.trigger = s.shared.trigger)
    (hk : freshTrigger s = true → s'.shared.trigged = s.shared.trigged) :
    pendingTrigger s' = pendingTrigger s := by
  cases hph : s.phase with
  | trigg c => simp [pendingTrigger,hp,hph]
  | _ =>
    cases hf : s.shared.trigger with
    | false => simp [pendingTrigger,hp,hph,ht,hf]
    | true => simp [pendingTrigger,hp,hph,ht,hf,hk (by simp [freshTrigger,hph,hf])]

theorem pending_command_kept {s s' : State δ} (hp : s'.phase = s.phase)
    (hc : s'.shared.cmdPending = s.shared.cmdPending)
    (hk : freshCommand s = true → s'.shared.command = s.shared.command) :
    pendingCommand s' = pendingCommand s := by
  cases hph : s.phase with
  | command c => simp [pendingCommand,hp,hph]
  | _ =>
    cases hf : s.shared.cmdPending with
    | false => simp [pendingCommand,hp,hph,hc,hf]
    | true => simp [pendingCommand,hp,hph,hc,hf,hk (by simp [freshCommand,hph,hf])]

theorem inv_put_command {s : State δ} (h : Inv s) (hr : r.isTrigg = false) (hf : Free r s) :
    Inv (put r s) := by
  simp only [Free,Request.flagged,hr,Bool.false_eq_true,if_false] at hf
  obtain ⟨hc,hk⟩ := hf
  obtain ⟨hcmd,hpend,htrig⟩ := store_command hr s.shared
  have hphase : ∀ c, s.phase ≠ .command c := by
    intro c hp
    rw [h.fetchedCommand c hp] at hc
    cases hc
  refine ⟨?_,?_,fun c hp => absurd hp (hphase c),fun c hp => ?_⟩
  · have hone : pendingCommand (put r s) = [r] := by
      cases hp : s.phase with
      | command c => exact absurd hp (hphase c)
      | _ => simp [pendingCommand,put,hp,hpend,hcmd]
    have hold := h.commands
    rw [no_pending_command h hc,List.append_nil] at hold
    rw [hone]
    simp only [put,commands_snoc,hr,hold,Bool.false_eq_true,if_false]
  · have hkeep : pendingTrigger (put r s) = pendingTrigger s :=
      pending_trigger_kept rfl htrig (fun hfresh => store_bare (hk hfresh) s.shared)
    rw [hkeep]
    simp only [put,triggers_snoc,hr,Bool.false_eq_true,if_false,List.append_nil]
    exact h.triggers
  · exact htrig.trans (h.fetchedTrigger c hp)

theorem inv_put_trigger {s : State δ} (h : Inv s) (hr : r.isTrigg = true) (hf : Free r s) :
    Inv (put r s) := by
  simp only [Free,Request.flagged,hr,if_true] at hf
  obtain ⟨ht,hk⟩ := hf
  obtain ⟨htrg,hflag,hpend,hsame⟩ := store_trigger hr s.shared
  have hphase : ∀ c, s.phase ≠ .trigg c := by
    intro c hp
    rw [h.fetchedTrigger c hp] at ht
    cases ht
  refine ⟨?_,?_,fun c hp => ?_,fun c hp => absurd hp (hphase c)⟩
  · have hkeep : pendingCommand (put r s) = pendingCommand s :=
      pending_command_kept rfl hpend (fun hfresh => hsame (hk hfresh))
    rw [hkeep]
    simp only [put,commands_snoc,hr,if_true,List.append_nil]
    exact h.commands
  · have hone : pendingTrigger (put r s) = [r] := by
      cases hp : s.phase with
      | trigg c => exact absurd hp (hphase c)
      | _ => simp [pendingTrigger,put,hp,hflag,htrg]
    have hold := h.triggers
    rw [no_pending_trigger h ht,List.append_nil] at hold
    rw [hone]
    simp only [put,triggers_snoc,hr,hold,if_true]
  · exact hpend.trans (h.fetchedCommand c hp)

theorem inv_put {s : State δ} (h : Inv s) (hf : Free r s) : Inv (put r s) := by
  cases hr : r.isTrigg with
  | false => exact inv_put_command h hr hf
  | true => exact inv_put_trigger h hr hf

theorem inv_own {s : State δ} (h : Inv s) (hr : r.isTrigg = false) (hf : Free r s)
    (wake : Option Nat) : Inv (own r wake s) := by
  simp only [Free,Request.flagged,hr,Bool.false_eq_true,if_false] at hf
  obtain ⟨hc,hk⟩ := hf
  obtain ⟨hcmd,-,htrig⟩ := store_command hr s.shared
  have hphase : ∀ c, s.phase ≠ .command c := by
    intro c hp
    rw [h.fetchedCommand c hp] at hc
    cases hc
  unfold own
  apply inv_signal
  refine ⟨?_,?_,fun c hp => absurd hp (hphase c),fun c hp => htrig.trans (h.fetchedTrigger c hp)⟩
  · have hnone : pendingCommand { s with
        shared := { r.store s.shared with cmdPending := false }
        stored := s.stored ++ [r]
        executed := s.executed ++ [(r.store s.shared).command] } = [] := by
      cases hp : s.phase with
      | command c => exact absurd hp (hphase c)
      | _ => simp [pendingCommand]
    have hold := h.commands
    rw [no_pending_command h hc,List.append_nil] at hold
    rw [hnone,hcmd]
    simp only [commands_snoc,hr,hold,Bool.false_eq_true,if_false,List.append_nil]
  · have hkeep : pendingTrigger { s with
        shared := { r.store s.shared with cmdPending := false }
        stored := s.stored ++ [r]
        executed := s.executed ++ [(r.store s.shared).command] } = pendingTrigger s :=
      pending_trigger_kept rfl htrig (fun hfresh => store_bare (hk hfresh) s.shared)
    rw [hkeep,hcmd]
    simp only [triggers_snoc,hr,Bool.false_eq_true,if_false,List.append_nil]
    exact h.triggers

/-- Copying the slot changes where a request waits, not which one it is. -/
theorem inv_get_command {s : State δ} (h : Inv s) (hw : s.phase = .waiting) :
    Inv (getCommand s) := by
  have hcmd := h.commands
  have htrig := h.triggers
  simp only [pendingCommand,pendingTrigger,hw] at hcmd htrig
  unfold getCommand
  split
  · rename_i hc
    rw [if_pos hc] at hcmd
    exact ⟨hcmd,htrig,fun _ _ => hc,fun c hp => (by cases hp)⟩
  · rename_i hc
    split
    · rename_i ht
      rw [if_pos ht] at htrig
      exact ⟨hcmd,htrig,fun c hp => (by cases hp),fun _ _ => ht⟩
    · exact ⟨hcmd,htrig,fun c hp => (by cases hp),fun c hp => (by cases hp)⟩

theorem inv_finish {s : State δ} (h : Inv s) (wake : Option Nat) : Inv (finish wake s) := by
  have hcmd := h.commands
  have htrig := h.triggers
  unfold finish
  cases hp : s.phase with
  | waiting => exact h
  | polling =>
    simp only [pendingCommand,pendingTrigger,hp] at hcmd htrig
    exact ⟨hcmd,htrig,fun c hc => (by cases hc),fun c hc => (by cases hc)⟩
  | command c =>
    simp only [pendingCommand,pendingTrigger,hp] at hcmd htrig
    apply inv_signal
    refine ⟨?_,?_,fun c hc => (by cases hc),fun c hc => (by cases hc)⟩
    · simp only [commands_snoc,command_not_trigg,pendingCommand,Bool.false_eq_true,if_false,
        List.append_nil]
      exact hcmd
    · simp only [triggers_snoc,command_not_trigg,Bool.false_eq_true,if_false,List.append_nil]
      exact htrig
  | trigg c =>
    have hone : c.trigged.isTrigg = true := rfl
    simp only [pendingCommand,pendingTrigger,hp] at hcmd htrig
    apply inv_signal
    refine ⟨?_,?_,fun c hc => (by cases hc),fun c hc => (by cases hc)⟩
    · simp only [commands_snoc,hone,if_true,List.append_nil]
      exact hcmd
    · simp only [triggers_snoc,hone,pendingTrigger,Bool.false_eq_true,if_true,if_false,
        List.append_nil]
      exact htrig

theorem inv_step {s : State δ} (h : Inv s) (a : Action δ) (hl : Legal s a) (hc : Clean s a) :
    Inv (step a s) := by
  cases a with
  | enter r wake =>
    simp only [step,enter]
    split
    · exact { h with }
    · rename_i hf
      exact inv_signal (inv_put h (hc.resolve_left hf)) wake
  | resume i wake =>
    simp only [step,resume]
    cases hw : s.woken[i]? with
    | none => exact h
    | some r =>
      have h' : Inv { s with woken := s.woken.eraseIdx i } := { h with }
      exact inv_signal (inv_put h' (hc r hw)) wake
  | own r wake => exact inv_own h hl.1 hc wake
  | getCommand => exact inv_get_command h hl
  | finish wake => exact inv_finish h wake

def RunOk (ok : State δ → Action δ → Prop) : State δ → List (Action δ) → Prop
  | _,[] => True
  | s,a::acts => ok s a ∧ RunOk ok (step a s) acts

theorem inv_run {s : State δ} (h : Inv s) (acts : List (Action δ))
    (hr : RunOk (fun s a => Legal s a ∧ Clean s a) s acts) : Inv (run s acts) := by
  induction acts generalizing s with
  | nil => exact h
  | cons a acts ih =>
    obtain ⟨⟨hl,hc⟩,hrest⟩ := hr
    exact ih (inv_step h a hl hc) hrest

/-- Every stored request has been executed as it was stored, or is still to be. -/
def Delivered (s : State δ) : Prop :=
  (s.executed ++ (pendingCommand s ++ pendingTrigger s)).Perm s.stored

theorem commands_triggers (rs : List (Request δ)) : (commands rs ++ triggers rs).Perm rs := by
  have h := List.filter_append_perm (fun r : Request δ => !r.isTrigg) rs
  simpa [commands,triggers] using h

theorem Inv.delivered {s : State δ} (h : Inv s) : Delivered s := by
  have hs := commands_triggers s.stored
  rw [← h.commands,← h.triggers] at hs
  refine List.Perm.trans ?_ hs
  refine ((commands_triggers s.executed).symm.append_right _).trans ?_
  rw [List.append_assoc,List.append_assoc]
  refine List.Perm.append_left _ ?_
  rw [← List.append_assoc,← List.append_assoc]
  exact List.perm_append_comm.append_right _

/-- One turn of the thread from `get_command` back to it. -/
def round (s : State δ) : State δ := finish none (getCommand s)

/-- The thread left alone: it ends what it is doing and looks at the slot twice. -/
def drain (s : State δ) : State δ := round (round (finish none s))

@[simp] theorem signal_none (s : State δ) : signal none s = s := rfl

theorem round_spec (s : State δ) :
    (round s).phase = .waiting ∧ (round s).stored = s.stored ∧
      (s.shared.cmdPending = true → (round s).shared = { s.shared with cmdPending := false }) ∧
      (s.shared.cmdPending = false → (round s).shared = { s.shared with trigger := false }) := by
  unfold round getCommand
  by_cases hc : s.shared.cmdPending = true
  · simp [hc,finish]
  · by_cases ht : s.shared.trigger = true
    · simp [hc,ht,finish]
    · have hf : s.shared.trigger = false := by simpa using ht
      rw [if_neg hc,if_neg ht]
      refine ⟨rfl,rfl,fun hx => absurd hx hc,fun _ => ?_⟩
      show s.shared = { s.shared with trigger := false }
      cases hsh : s.shared
      simpa [hsh] using hf

theorem finish_spec (s : State δ) :
    (finish none s).phase = .waiting ∧ (finish none s).stored = s.stored := by
  unfold finish
  cases hp : s.phase with
  | waiting => exact ⟨hp,rfl⟩
  | _ => exact ⟨rfl,rfl⟩

/-- Two looks at the slot are enough for whatever is in it. -/
theorem drain_executes {s : State δ} (h : Inv s) : (drain s).executed.Perm s.stored := by
  obtain ⟨hw₀,hs₀⟩ := finish_spec s
  have h₀ := inv_finish h none
  obtain ⟨hw₁,hs₁,hc₁,ht₁⟩ := round_spec (finish none s)
  have h₁ : Inv (round (finish none s)) := inv_finish (inv_get_command h₀ hw₀) none
  obtain ⟨hw₂,hs₂,hc₂,ht₂⟩ := round_spec (round (finish none s))
  have h₂ : Inv (drain s) := inv_finish (inv_get_command h₁ hw₁) none
  have hflags : (drain s).shared.cmdPending = false ∧ (drain s).shared.trigger = false := by
    have hnext : (round (finish none s)).shared.cmdPending = false := by
      cases hc : (finish none s).shared.cmdPending with
      | true => rw [hc₁ hc]
      | false =>
        rw [ht₁ hc]
        exact hc
    have hlast : (drain s).shared = { (round (finish none s)).shared with trigger := false } :=
      ht₂ hnext
    rw [hlast]
    exact ⟨hnext,rfl⟩
  have hd := h₂.delivered
  rw [Delivered,no_pending_command h₂ hflags.1,no_pending_trigger h₂ hflags.2,List.append_nil,
    List.append_nil] at hd
  have hstored : (drain s).stored = s.stored := (hs₂.trans hs₁).trans hs₀
  rwa [hstored] at hd

def emptySlot : PollThCmd Nat := ⟨false,false,.pollStart,0,0,"",.pollCmd,0⟩

end CppTango.Polling.Mailbox
