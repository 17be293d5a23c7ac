import CppTango.Device.MultiAttribute
import Mathlib.Data.List.Nodup
import Mathlib.Logic.Function.Basic

namespace CppTango.Device.Signals

section Model

/-- What the system does with a signal: the default, put it in the queue of the signal thread, or run the
registered handlers at once. -/
inductive Disposition
  | default | enqueueing | direct
deriving DecidableEq, Repr

structure DevSigAction (C D : Type) where
  registeredClasses : List C
  registeredDevices : List D
deriving Repr

/-- Who can be registered. -/
inductive Registrant (C D : Type)
  | cls (c : C)
  | dev (d : D)
deriving DecidableEq, Repr

/-- The registrations, the handlers in the system and the queue of the signal thread; and what happened: the
handlers that ran, whether the thread is told to stop and whether the server shuts down. -/
structure SigState (C D : Type) where
  regSig : Int → DevSigAction C D
  os : Int → Disposition
  signalQueue : List Int
  called : List (Int × Registrant C D)
  stopped : Bool
  shuttingDown : Bool

def sigHup : Int := 1

def sigInt : Int := 2

def sigQuit : Int := 3

def sigTerm : Int := 15

/-- `_NSIG`, one more than the last signal. -/
def nsig : Int := 65

def stopSignalThread : Int := -1

def autoSignal (signo : Int) : Bool :=
  signo = sigInt || signo = sigTerm || signo = sigQuit || signo = sigHup

def sigNames : List String :=
  ["0","SIGHUP","SIGINT","SIGQUIT","SIGILL","SIGTRAP","SIGABRT","SIGBUS","SIGFPE","SIGKILL","SIGUSR1","SIGSEGV",
    "SIGUSR2","SIGPIPE","SIGALRM","SIGTERM"]

/-- The names of the first signals, and the numbers of the others. -/
def sigName (signo : Int) : String := sigNames.getD signo.toNat (toString signo)

variable {C D : Type} [DecidableEq C] [DecidableEq D]

/-- Nobody is registered. -/
def DevSigAction.unused (a : DevSigAction C D) : Bool := a.registeredClasses.isEmpty && a.registeredDevices.isEmpty

section Install
variable (osError : Int → Option Int)

/-- `sigaction`, with the number of the error it ends with. -/
def installSignalHandler (signo : Int) (sa : Disposition) (s : SigState C D) : SigState C D × Option DevErrorList :=
  match osError signo with
  | some errno =>
    (s,some (thrown "API_CantInstallSignal"
      ("Can't install signal " ++ toString signo ++ ". OS error = " ++ toString errno) "install_signal_handler"))
  | none => ({ s with os := Function.update s.os signo sa },none)

def registerHandler (signo : Int) (handler : Bool) (s : SigState C D) : SigState C D × Option DevErrorList :=
  installSignalHandler osError signo (if handler then .direct else .enqueueing) s

def unregisterHandler (signo : Int) (s : SigState C D) : SigState C D × Option DevErrorList :=
  installSignalHandler osError signo .default s

/-- The signals the server handles in any case. -/
def initialise (s : SigState C D) : List Int → SigState C D × Option DevErrorList
  | [] => (s,none)
  | signum::signums =>
    match registerHandler osError signum false s with
    | (s1,some e) => (s1,some e)
    | (s1,none) => initialise s1 signums

def signalsToHandle : List Int := [sigInt,sigTerm,sigQuit,sigHup]

end Install

section Register
variable (osError : Int → Option Int)

def outOfRange (signo : Int) (origin : String) : DevErrorList :=
  thrown "API_SignalOutOfRange" ("Signal number " ++ toString signo ++ " out of range") origin

def notAuthorized (signo : Int) (origin : String) : DevErrorList :=
  thrown "API_SignalOutOfRange" ("Signal " ++ sigName signo ++ "is not authorized using your own handler") origin

/-- The registration of a class or of a device, which `record` enters. -/
def register (record : DevSigAction C D → DevSigAction C D) (origin : String) (signo : Int) (handler : Bool)
    (s : SigState C D) : SigState C D × Option DevErrorList :=
  if signo < 1 ∨ nsig ≤ signo then (s,some (outOfRange signo origin))
  else if autoSignal signo && handler then (s,some (notAuthorized signo origin))
  else
    match if !autoSignal signo && (s.regSig signo).unused then registerHandler osError signo handler s
      else (s,none) with
    | (s1,some e) => (s1,some e)
    | (s1,none) => ({ s1 with regSig := Function.update s1.regSig signo (record (s1.regSig signo)) },none)

def recordClass (c : C) (a : DevSigAction C D) : DevSigAction C D :=
  if c ∈ a.registeredClasses then a else { a with registeredClasses := a.registeredClasses ++ [c] }

def recordDevice (d : D) (a : DevSigAction C D) : DevSigAction C D :=
  if d ∈ a.registeredDevices then a else { a with registeredDevices := a.registeredDevices ++ [d] }

def registerClassSignal (signo : Int) (handler : Bool) (c : C) (s : SigState C D) :
    SigState C D × Option DevErrorList :=
  register osError (recordClass c) "DServerSignal::register_class_signal" signo handler s

def registerDevSignal (signo : Int) (handler : Bool) (d : D) (s : SigState C D) :
    SigState C D × Option DevErrorList :=
  register osError (recordDevice d) "DServerSignal::register_dev_signal" signo handler s

/-- A registration is taken out of its list. -/
def dropped (drop : DevSigAction C D → DevSigAction C D) (signo : Int) (s : SigState C D) : SigState C D :=
  { s with regSig := Function.update s.regSig signo (drop (s.regSig signo)) }

/-- The end of the registration of a class or of a device. -/
def unregister (isRegistered : DevSigAction C D → Bool) (drop : DevSigAction C D → DevSigAction C D)
    (origin : String) (signo : Int) (s : SigState C D) : SigState C D × Option DevErrorList :=
  if signo < 1 ∨ nsig ≤ signo then (s,some (outOfRange signo origin))
  else if isRegistered (s.regSig signo) then
    if !autoSignal signo && (drop (s.regSig signo)).unused then unregisterHandler osError signo (dropped drop signo s)
    else (dropped drop signo s,none)
  else (s,none)

def unregisterClassSignal (signo : Int) (c : C) (s : SigState C D) : SigState C D × Option DevErrorList :=
  unregister osError (fun a => decide (c ∈ a.registeredClasses))
    (fun a => { a with registeredClasses := a.registeredClasses.erase c }) "DServerSignal::unregister_class_signal"
    signo s

def unregisterDevSignal (signo : Int) (d : D) (s : SigState C D) : SigState C D × Option DevErrorList :=
  unregister osError (fun a => decide (d ∈ a.registeredDevices))
    (fun a => { a with registeredDevices := a.registeredDevices.erase d }) "DServerSignal::unregister_dev_signal"
    signo s

/-- A class or a device. -/
def registerSignal (signo : Int) (handler : Bool) (s : SigState C D) :
    Registrant C D → SigState C D × Option DevErrorList
  | .cls c => registerClassSignal osError signo handler c s
  | .dev d => registerDevSignal osError signo handler d s

def unregisterSignal (signo : Int) (s : SigState C D) :
    Registrant C D → SigState C D × Option DevErrorList
  | .cls c => unregisterClassSignal osError signo c s
  | .dev d => unregisterDevSignal osError signo d s

/-- The forms for all signals, which the destructors of classes and devices use; an exception ends the loop. -/
def unregisterAll (h : Registrant C D) (s : SigState C D) : List Int → SigState C D × Option DevErrorList
  | [] => (s,none)
  | i::is =>
    match unregisterSignal osError i s h with
    | (s1,some e) => (s1,some e)
    | (s1,none) => unregisterAll h s1 is

def signals : List Int := (List.range (nsig - 1).toNat).map (fun n : Nat => (n : Int) + 1)

end Register

section Deliver

/-- The classes, then the devices. -/
def handlers (a : DevSigAction C D) : List (Registrant C D) :=
  a.registeredClasses.map Registrant.cls ++ a.registeredDevices.map Registrant.dev

def deliverToRegisteredHandlers (signo : Int) (s : SigState C D) : SigState C D :=
  { s with called := s.called ++ (handlers (s.regSig signo)).map (fun h => (signo,h)) }

/-- A signal comes. The default may be the end of the process: then it is the end of the run. -/
def arrive (signo : Int) (s : SigState C D) : SigState C D :=
  match s.os signo with
  | .default => s
  | .enqueueing => { s with signalQueue := s.signalQueue ++ [signo] }
  | .direct => deliverToRegisteredHandlers signo s

/-- One turn of the signal thread, which waits while its queue is empty. -/
def threadTurn (s : SigState C D) : SigState C D :=
  if s.stopped then s
  else
    match s.signalQueue with
    | [] => s
    | signo::queue =>
      if signo = stopSignalThread then { s with signalQueue := queue,stopped := true }
      else if signo = sigHup then { s with signalQueue := queue }
      else if autoSignal signo then
        { deliverToRegisteredHandlers signo { s with signalQueue := queue } with shuttingDown := true }
      else deliverToRegisteredHandlers signo { s with signalQueue := queue }

end Deliver

inductive Act (C D : Type)
  | register (signo : Int) (handler : Bool) (h : Registrant C D)
  | unregister (signo : Int) (h : Registrant C D)
  | unregisterAll (h : Registrant C D)
  | raise (signo : Int)
  | thread
  | destroy
deriving DecidableEq, Repr

variable (osError : Int → Option Int)

def step (s : SigState C D) : Act C D → SigState C D
  | .register signo handler h => (registerSignal osError signo handler s h).1
  | .unregister signo h => (unregisterSignal osError signo s h).1
  | .unregisterAll h => (unregisterAll osError h s signals).1
  | .raise signo => arrive signo s
  | .thread => threadTurn s
  -- the destructor of the singleton
  | .destroy => { s with signalQueue := s.signalQueue ++ [stopSignalThread] }

/-- Nobody is registered and no handler is in the system. -/
def empty : SigState C D := ⟨fun _ => ⟨[],[]⟩,fun _ => .default,[],[],false,false⟩

/-- The server after `initialise`. -/
def started : SigState C D × Option DevErrorList := initialise osError empty signalsToHandle

end Model

section Handlers
variable {C D : Type} {a : DevSigAction C D} {osError : Int → Option Int} {signo : Int} {s : SigState C D}

@[simp] theorem cls_mem_handlers {c : C} : Registrant.cls c ∈ handlers a ↔ c ∈ a.registeredClasses := by
  simp [handlers]

@[simp] theorem dev_mem_handlers {d : D} : Registrant.dev d ∈ handlers a ↔ d ∈ a.registeredDevices := by
  simp [handlers]

theorem unused_iff : a.unused = true ↔ handlers a = [] := by simp [DevSigAction.unused,handlers]

theorem handlers_nodup : (handlers a).Nodup ↔ a.registeredClasses.Nodup ∧ a.registeredDevices.Nodup := by
  unfold handlers
  rw [List.nodup_append',List.nodup_map_iff (fun _ _ => Registrant.cls.inj),
    List.nodup_map_iff (fun _ _ => Registrant.dev.inj)]
  simp [List.disjoint_left]

/-- A signal has its handler in the system: an automatic one always, another one while somebody is registered,
which the system has to let the server do; and nobody is registered twice, or for what is no signal. -/
structure Installed (osError : Int → Option Int) (s : SigState C D) : Prop where
  auto : ∀ signo, autoSignal signo = true → s.os signo = .enqueueing
  used : ∀ signo, autoSignal signo = false → (s.os signo = .default ↔ handlers (s.regSig signo) = [])
  once : ∀ signo, (handlers (s.regSig signo)).Nodup
  able : ∀ signo, autoSignal signo = false → handlers (s.regSig signo) ≠ [] → osError signo = none
  known : ∀ signo, handlers (s.regSig signo) ≠ [] → 1 ≤ signo ∧ signo < nsig

theorem Installed.of_same {t : SigState C D} (hi : Installed osError s) (hos : t.os = s.os)
    (hreg : t.regSig = s.regSig) : Installed osError t := by
  refine ⟨?_,?_,?_,?_,?_⟩
  · rw [hos]
    exact hi.auto
  · rw [hos,hreg]
    exact hi.used
  · rw [hreg]
    exact hi.once
  · rw [hreg]
    exact hi.able
  · rw [hreg]
    exact hi.known

/-- Signals that come and the thread leave the registrations and the system alone. -/
theorem arrive_same : (arrive signo s).os = s.os ∧ (arrive signo s).regSig = s.regSig := by
  unfold arrive
  split <;> exact ⟨rfl,rfl⟩

theorem threadTurn_same : (threadTurn s).os = s.os ∧ (threadTurn s).regSig = s.regSig := by
  unfold threadTurn
  repeat' split
  all_goals exact ⟨rfl,rfl⟩

end Handlers

section Lists
variable {C D : Type} [DecidableEq C] [DecidableEq D] {h g : Registrant C D} {a : DevSigAction C D}

/-- The lists with a class or a device, at the end if it was not there. -/
def recordOf (h : Registrant C D) : DevSigAction C D → DevSigAction C D :=
  match h with
  | .cls c => recordClass c
  | .dev d => recordDevice d

/-- The lists without a class or a device. -/
def dropOf (h : Registrant C D) (a : DevSigAction C D) : DevSigAction C D :=
  match h with
  | .cls c => { a with registeredClasses := a.registeredClasses.erase c }
  | .dev d => { a with registeredDevices := a.registeredDevices.erase d }

theorem mem_recordOf : g ∈ handlers (recordOf h a) ↔ g = h ∨ g ∈ handlers a := by
  cases h with
  | cls c =>
    dsimp only [recordOf]
    unfold recordClass
    split
    next hm =>
      refine ⟨.inr,fun hg => hg.elim (fun he => ?_) id⟩
      rw [he]
      exact cls_mem_handlers.mpr hm
    next => cases g <;> simp [or_comm]
  | dev d =>
    dsimp only [recordOf]
    unfold recordDevice
    split
    next hm =>
      refine ⟨.inr,fun hg => hg.elim (fun he => ?_) id⟩
      rw [he]
      exact dev_mem_handlers.mpr hm
    next => cases g <;> simp [or_comm]

theorem nodup_recordOf (hn : (handlers a).Nodup) : (handlers (recordOf h a)).Nodup := by
  rw [handlers_nodup] at hn
  cases h with
  | cls c =>
    dsimp only [recordOf]
    unfold recordClass
    split
    next => exact handlers_nodup.mpr hn
    next hm => exact handlers_nodup.mpr ⟨hn.1.append (List.nodup_singleton c) (by simpa using hm),hn.2⟩
  | dev d =>
    dsimp only [recordOf]
    unfold recordDevice
    split
    next => exact handlers_nodup.mpr hn
    next hm => exact handlers_nodup.mpr ⟨hn.1,hn.2.append (List.nodup_singleton d) (by simpa using hm)⟩

theorem mem_dropOf (hn : (handlers a).Nodup) : g ∈ handlers (dropOf h a) ↔ g ≠ h ∧ g ∈ handlers a := by
  rw [handlers_nodup] at hn
  cases h with
  | cls c => cases g <;> simp [dropOf,hn.1.mem_erase_iff]
  | dev d => cases g <;> simp [dropOf,hn.2.mem_erase_iff]

theorem nodup_dropOf (hn : (handlers a).Nodup) : (handlers (dropOf h a)).Nodup := by
  rw [handlers_nodup] at hn
  cases h with
  | cls c => exact handlers_nodup.mpr ⟨hn.1.erase c,hn.2⟩
  | dev d => exact handlers_nodup.mpr ⟨hn.1,hn.2.erase d⟩

end Lists

end CppTango.Device.Signals
