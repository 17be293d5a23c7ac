import CppTango.Lib.Steps
import Mathlib.Tactic.MkIffOfInductiveProp

namespace CppTango.Device.DevIntr

open CppTango.Lib

section Model

/-- How far a request that changes the interface has come. It holds the device monitor from its
entry until it leaves. -/
inductive Request where
  | idle | entered
  | looked (running : Bool)
  | changed (running : Bool)
  | read (running : Bool)
  | waiting (late : Bool)
  | leaving
deriving DecidableEq, Repr

/-- How far the thread has come: it is not there, in `get_command`, with a command, or on its way
out, before and behind `push_event`. -/
inductive Thread where
  | none | ready | waiting | received | ending | pushed
deriving DecidableEq, Repr

/-- What the thread and the requests share, and what happened: the interface before the first change
that no evaluation covers, whether an evaluation compared with another one, and whether a request
ended with the time-out exception of a thread that had decided to end when it got its command. -/
structure State (ι : Type) where
  interface : ι
  memo : ι
  cmdPending : Bool
  thRunning : Bool
  request : Request
  thread : Thread
  base : Option ι
  misled : Bool
  refused : Bool
deriving Repr

/-- The atomic sections. A wait ends with `wake`, `requestTimeOut` or `giveUp`, at any moment. -/
inductive Act (ι : Type) where
  | enter | look | abandon
  | change (i : ι)
  | readFlag | start | send | served | requestTimeOut | leave
  | getCommand | wake | execute | pushEvent | giveUp | clearRunning
deriving Repr

/-- The thread has decided to end. -/
def Thread.decided : Thread → Bool
  | .none => true
  | .ending => true
  | .pushed => true
  | _ => false

variable {ι : Type} [DecidableEq ι]

/-- One section; nothing happens when it is not the turn of its owner. -/
def step (s : State ι) : Act ι → State ι
  | .enter => if s.request = .idle then { s with request := .entered } else s
  -- `get_interface`, when no thread is running
  | .look =>
    if s.request = .entered then
      { s with request := .looked s.thRunning, memo := if s.thRunning then s.memo else s.interface }
    else s
  -- an exception before the change
  | .abandon =>
    match s.request with
    | .looked _ => { s with request := .leaving }
    | _ => s
  | .change i =>
    match s.request with
    | .looked running =>
      { s with request := .changed running, interface := i, base := some (s.base.getD s.interface) }
    | _ => s
  | .readFlag =>
    match s.request with
    | .changed _ => { s with request := .read s.thRunning }
    | _ => s
  -- the flags are written without the monitor
  | .start =>
    if s.request = .read false then
      { s with request := .leaving, cmdPending := false, thRunning := true, thread := .ready }
    else s
  | .send =>
    if s.request = .read true then
      { s with request := .waiting s.thread.decided, cmdPending := true }
    else s
  | .served =>
    match s.request with
    | .waiting _ => if s.cmdPending then s else { s with request := .leaving }
    | _ => s
  | .requestTimeOut =>
    match s.request with
    | .waiting late => if s.cmdPending then { s with request := .leaving, refused := s.refused || late } else s
    | _ => s
  | .leave => if s.request = .leaving then { s with request := .idle } else s
  | .getCommand =>
    if s.thread = .ready then { s with thread := if s.cmdPending then .received else .waiting } else s
  | .wake =>
    if s.thread = .waiting then { s with thread := if s.cmdPending then .received else .ending } else s
  | .execute => if s.thread = .received then { s with thread := .ready, cmdPending := false } else s
  -- `has_changed` under the device monitor
  | .pushEvent =>
    if s.thread = .ending ∧ s.request = .idle then
      { s with thread := .pushed, misled := s.misled || decide (s.base.getD s.memo ≠ s.memo), base := none }
    else s
  -- the wait for the device monitor ends with an exception
  | .giveUp => if s.thread = .ending then { s with thread := .pushed } else s
  | .clearRunning => if s.thread = .pushed then { s with thread := .none, thRunning := false } else s

def run (s : State ι) (acts : List (Act ι)) : State ι := acts.foldl step s

/-- A device whose interface nobody has changed. -/
def initial (i memo : ι) (cmdPending : Bool) : State ι :=
  ⟨i,memo,cmdPending,false,.idle,.none,none,false,false⟩

end Model

section Claims
variable {ι : Type}

/-- Once all is quiet the last evaluation has come behind the last change; no evaluation was made
against a wrong interface, and no request was refused for a thread that had decided to end. -/
structure Announced (s : State ι) : Prop where
  covered : s.request = .idle → s.thread = .none → s.base = none
  right : s.misled = false
  notRefused : s.refused = false

/-- A request that has seen the thread running and has not yet sent its command. -/
def Request.counts : Request → Bool
  | .looked running => running
  | .changed running => running
  | .read running => running
  | _ => false

/-- No request looks at the flag of a thread that has decided to end, no thread decides to end while a
request counts on it, and no thread waits in vain for the device monitor. -/
def InTime (s : State ι) : Act ι → Prop
  | .look => s.thread ≠ .ending ∧ s.thread ≠ .pushed
  | .wake => s.thread = .waiting → s.cmdPending = false → s.request.counts = false
  | .giveUp => s.thread ≠ .ending
  | _ => True

instance (s : State ι) : (a : Act ι) → Decidable (InTime s a)
  | .look => inferInstanceAs (Decidable (_ ∧ _))
  | .wake => inferInstanceAs (Decidable (_ → _ → _))
  | .giveUp => inferInstanceAs (Decidable (_ ≠ _))
  | .enter | .abandon | .change _ | .readFlag | .start | .send | .served | .requestTimeOut | .leave
  | .getCommand | .execute | .pushEvent | .clearRunning => .isTrue trivial

end Claims

section Invariant
variable {ι : Type}

/-- What the interfaces are when thread and request have come so far. -/
def Fits (s : State ι) : Thread → Request → Prop
  | .none,.looked running => running = false ∧ s.base = none ∧ s.memo = s.interface
  | .none,.changed running => running = false ∧ s.base = some s.memo
  | .none,.read running => running = false ∧ s.base = some s.memo
  | .none,.waiting _ => False
  | .none,_ => s.base = none
  | .ending,.waiting _ => s.base = some s.memo ∧ s.cmdPending = false
  | .ending,.looked _ => False
  | .ending,.changed _ => False
  | .ending,.read _ => False
  | .ending,_ => s.base = some s.memo
  | .pushed,.idle => s.base = none
  | .pushed,.entered => s.base = none
  | .pushed,_ => False
  | _,.looked running => running = true ∧ s.base = some s.memo
  | _,.changed running => running = true ∧ s.base = some s.memo
  | _,.read running => running = true ∧ s.base = some s.memo
  | _,.waiting late => late = false ∧ s.base = some s.memo
  | _,_ => s.base = some s.memo

def Thread.alive : Thread → Bool
  | .none => false
  | _ => true

@[mk_iff]
structure Inv (s : State ι) : Prop where
  running : s.thRunning = s.thread.alive
  right : s.misled = false
  notRefused : s.refused = false
  fits : Fits s s.thread s.request

theorem inv_initial (i memo : ι) (cmdPending : Bool) : Inv (initial i memo cmdPending) := ⟨rfl,rfl,rfl,rfl⟩

variable [DecidableEq ι]

/-- The sections of a request keep the invariant: it meets no thread on its way out, and it relies on
a thread only when it has seen one. -/
theorem inv_request (s : State ι) (h : Inv s) : Inv (step s .enter) ∧
    (s.thread ≠ .ending → s.thread ≠ .pushed → Inv (step s .look)) ∧ Inv (step s .abandon) ∧
    (∀ i, Inv (step s (.change i))) ∧ Inv (step s .readFlag) ∧ Inv (step s .start) ∧ Inv (step s .send) ∧
    Inv (step s .served) ∧ Inv (step s .requestTimeOut) ∧ Inv (step s .leave) := by
  obtain ⟨i,memo,cmd,run,req,th,base,misled,refused⟩ := s
  obtain ⟨hrun,hright,hrefused,hfits⟩ := h
  simp only at hrun hright hrefused hfits
  subst hrun hright hrefused
  cases req with
  | idle => cases th <;> simp_all [step,Fits,inv_iff,Thread.alive]
  | entered => cases th <;> simp_all [step,Fits,inv_iff,Thread.alive]
  | looked running => cases th <;> simp_all [step,Fits,inv_iff,Thread.alive]
  | changed running => cases th <;> simp_all [step,Fits,inv_iff,Thread.alive]
  | read running => cases th <;> simp_all [step,Fits,inv_iff,Thread.alive,Thread.decided]
  | waiting late => cases cmd <;> cases th <;> simp_all [step,Fits,inv_iff,Thread.alive]
  | leaving => cases th <;> simp_all [step,Fits,inv_iff,Thread.alive]

/-- So do those of the thread, when nobody counts on it as it decides to end, and it gets the device
monitor. -/
theorem inv_thread (s : State ι) (h : Inv s) : Inv (step s .getCommand) ∧
    ((s.thread = .waiting → s.cmdPending = false → s.request.counts = false) → Inv (step s .wake)) ∧
    Inv (step s .execute) ∧ Inv (step s .pushEvent) ∧ (s.thread ≠ .ending → Inv (step s .giveUp)) ∧
    Inv (step s .clearRunning) := by
  obtain ⟨i,memo,cmd,run,req,th,base,misled,refused⟩ := s
  obtain ⟨hrun,hright,hrefused,hfits⟩ := h
  simp only at hrun hright hrefused hfits
  subst hrun hright hrefused
  cases th with
  | none => cases req <;> simp_all [step,Fits,inv_iff,Thread.alive]
  | ready => cases cmd <;> cases req <;> simp_all [step,Fits,inv_iff,Thread.alive]
  | waiting => cases cmd <;> cases req <;> simp_all [step,Fits,inv_iff,Thread.alive,Request.counts]
  | received => cases req <;> simp_all [step,Fits,inv_iff,Thread.alive]
  | ending => cases req <;> simp_all [step,Fits,inv_iff,Thread.alive]
  | pushed => cases req <;> simp_all [step,Fits,inv_iff,Thread.alive]

theorem inv_step (s : State ι) (a : Act ι) (h : Inv s) (ha : InTime s a) : Inv (step s a) := by
  obtain ⟨henter,hlook,habandon,hchange,hread,hstart,hsend,hserved,hout,hleave⟩ := inv_request s h
  obtain ⟨hget,hwake,hexec,hpush,hgive,hclear⟩ := inv_thread s h
  cases a with
  | enter => exact henter
  | look => exact hlook ha.1 ha.2
  | abandon => exact habandon
  | change i => exact hchange i
  | readFlag => exact hread
  | start => exact hstart
  | send => exact hsend
  | served => exact hserved
  | requestTimeOut => exact hout
  | leave => exact hleave
  | getCommand => exact hget
  | wake => exact hwake ha
  | execute => exact hexec
  | pushEvent => exact hpush
  | giveUp => exact hgive ha
  | clearRunning => exact hclear

omit [DecidableEq ι] in
theorem announced_of_inv {s : State ι} (h : Inv s) : Announced s := by
  refine ⟨?_,h.right,h.notRefused⟩
  intro hr ht
  have hfits := h.fits
  rw [hr,ht] at hfits
  exact hfits

end Invariant

section Result
variable {ι : Type} [DecidableEq ι]

/-- In every run in which no request looks at the flag of a thread that has decided to end, no thread
decides to end while a request counts on it, and every thread gets the device monitor, every change is
covered by an evaluation against the right interface and no request is refused. -/
theorem changes_announced (i memo : ι) (cmdPending : Bool) (acts : List (Act ι))
    (h : Along step InTime (initial i memo cmdPending) acts) :
    Announced (run (initial i memo cmdPending) acts) :=
  announced_of_inv (along_inv inv_step (inv_initial i memo cmdPending) h)

/-- Two requests, the second one while the thread still waits. -/
def twoChanges : List (Act Nat) :=
  [.enter,.look,.change 1,.readFlag,.start,.leave,.getCommand,.enter,.look,.change 2,.readFlag,.send,.wake,
    .execute,.served,.leave,.getCommand,.wake,.pushEvent,.clearRunning]

theorem two_changes_announced : (run (initial 0 0 false) twoChanges).base = none ∧
    Announced (run (initial 0 0 false) twoChanges) :=
  ⟨by decide,changes_announced 0 0 false twoChanges (by decide)⟩

/-- The thread decides to end when the second request has looked at its flag: the request waits for a
thread that waits for the monitor of the request. -/
theorem second_change_refused : ∃ acts : List (Act Nat),
    (run (initial 0 0 false) acts).request = .idle ∧ (run (initial 0 0 false) acts).thread = .none ∧
      ¬ Announced (run (initial 0 0 false) acts) := by
  refine ⟨[.enter,.look,.change 1,.readFlag,.start,.leave,.getCommand,.enter,.look,.wake,.change 2,.readFlag,
    .send,.requestTimeOut,.leave,.pushEvent,.clearRunning],by decide,by decide,?_⟩
  intro h
  exact absurd h.notRefused (by decide)

end Result

end CppTango.Device.DevIntr
