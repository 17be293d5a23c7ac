import CppTango.Data

namespace CppTango.Polling

inductive PollObjType
  | pollCmd | pollAttr
deriving DecidableEq, Repr

structure ObjKey (δ : Type) where
  dev : δ
  type : PollObjType
  name : String
deriving DecidableEq, Repr

/-- A polled object with its period in milliseconds; 0 is externally triggered. -/
structure PollObj (δ : Type) where
  key : ObjKey δ
  upd : Nat
deriving DecidableEq, Repr

/-- One line of the work list: objects of one device and type polled together. -/
structure WorkItem (δ : Type) where
  dev : δ
  type : PollObjType
  update : Nat
  name : List String
  wakeUpDate : Int
deriving DecidableEq, Repr

namespace PollThread
variable {δ : Type} [DecidableEq δ]

structure Config (δ : Type) where
  idlVersion : δ → Nat
  pollingBef9 : Bool

/-- Objects of such a type share a work item with others of the same period. -/
def Config.groups (cfg : Config δ) (dev : δ) (type : PollObjType) : Bool :=
  type = .pollAttr ∧ 4 ≤ cfg.idlVersion dev ∧ cfg.pollingBef9 = false

def discardThreshold : Int := 20

structure State (δ : Type) where
  /-- what the devices list as polled -/
  polled : List (PollObj δ) := []
  works : List (WorkItem δ) := []
  extTrigWorks : List (WorkItem δ) := []
  autoUpd : List (Nat × String) := []
  remUpd : List (Nat × String) := []
  /-- the item taken off the work list by the poll in progress -/
  inPoll : Option (WorkItem δ) := none
  now : Int := 0
  /-- `local_cmd.new_upd` of the last command -/
  localUpd : Nat := 0
  previousNbLate : Nat := 0
  sleep : Option Int := some 1
deriving DecidableEq, Repr

def insertInList (newWork : WorkItem δ) : List (WorkItem δ) → List (WorkItem δ)
  | [] => [newWork]
  | w::ws =>
    if w.wakeUpDate < newWork.wakeUpDate then w :: insertInList newWork ws
    else newWork :: w :: ws

/-- Add a name to the first item of that device, type and period. -/
def joinItem (key : ObjKey δ) (upd : Nat) : List (WorkItem δ) → Option (List (WorkItem δ))
  | [] => none
  | w::ws =>
    if w.dev = key.dev ∧ w.update = upd ∧ w.type = key.type then
      some ({ w with name := w.name ++ [key.name] } :: ws)
    else (joinItem key upd ws).map (fun ws => w :: ws)

def addInsertInList (cfg : Config δ) (key : ObjKey δ) (upd : Nat) (date : Int)
    (works : List (WorkItem δ)) : List (WorkItem δ) :=
  let newWork := ⟨key.dev,key.type,upd,[key.name],date⟩
  if cfg.groups key.dev key.type then
    match joinItem key upd works with
    | some works => works
    | none => insertInList newWork works
  else insertInList newWork works

/-- Take a name out of the first item that has it, and the item if it is then empty. -/
def eraseName (key : ObjKey δ) : List (WorkItem δ) → Option (List (WorkItem δ))
  | [] => none
  | w::ws =>
    if w.dev = key.dev ∧ w.type = key.type ∧ key.name ∈ w.name then
      if w.name.erase key.name = [] then some ws
      else some ({ w with name := w.name.erase key.name } :: ws)
    else (eraseName key ws).map (fun ws => w :: ws)

/-- Only the first name of an externally triggered item is looked at. -/
def eraseTrig (key : ObjKey δ) : List (WorkItem δ) → Option (List (WorkItem δ))
  | [] => none
  | w::ws =>
    if w.dev = key.dev ∧ w.type = key.type ∧ w.name.head? = some key.name then some ws
    else (eraseTrig key ws).map (fun ws => w :: ws)

/-- The commands that edit the lists, each with the fields its case reads. An object stands
for the entry of the device's list at the index sent. -/
inductive Command (δ : Type)
  | addObj (obj : PollObj δ) (delta : Nat)
  | remObj (key : ObjKey δ)
  | remExtTrigObj (key : ObjKey δ)
  | remDev (dev : δ)
  | updPeriod (key : ObjKey δ) (newUpd : Nat) (obj : PollObj δ)
deriving DecidableEq, Repr

def addObj (cfg : Config δ) (obj : PollObj δ) (delta : Nat) (s : State δ) : State δ :=
  let joined := if cfg.groups obj.key.dev obj.key.type then joinItem obj.key obj.upd s.works else none
  match joined with
  | some works => { s with works := works }
  | none =>
    let wo := ⟨obj.key.dev,obj.key.type,obj.upd,[obj.key.name],s.now + delta⟩
    if obj.upd ≠ 0 then { s with works := insertInList wo s.works }
    else { s with extTrigWorks := s.extTrigWorks ++ [{ wo with wakeUpDate := 0 }] }

/-- The end of the update command: an object not met in the work list is looked for in the
externally triggered one, else it is the object being polled. `names` are those already put
in the work item. -/
def updNotFound (key : ObjKey δ) (newUpd : Nat) (names : List String) (s : State δ) : State δ :=
  match eraseTrig key s.extTrigWorks with
  | some ext =>
    let wo := ⟨key.dev,key.type,newUpd,names ++ [key.name],s.now⟩
    { s with extTrigWorks := ext, works := insertInList wo s.works }
  | none => { s with autoUpd := s.autoUpd ++ [(newUpd,key.name)] }

def updPeriod (cfg : Config δ) (key : ObjKey δ) (newUpd : Nat) (obj : PollObj δ) (s : State δ) :
    State δ :=
  if newUpd ≠ 0 then
    if s.works ≠ [] then
      -- the object is entered with its new period even when it was not found
      let now := s.now + newUpd
      match eraseName key s.works with
      | some works => { s with now := now, works := addInsertInList cfg key newUpd now works }
      | none => { s with
          now := now
          works := addInsertInList cfg key newUpd now s.works
          remUpd := s.remUpd ++ [(newUpd,key.name)] }
    else updNotFound key newUpd [] s
  else
    let wo := ⟨obj.key.dev,obj.key.type,obj.upd,[obj.key.name],0⟩
    match eraseName key s.works with
    | some works => { s with works := works, extTrigWorks := s.extTrigWorks ++ [wo] }
    | none =>
      updNotFound key newUpd [obj.key.name] { s with extTrigWorks := s.extTrigWorks ++ [wo] }

def Command.newUpd : Command δ → State δ → Nat
  | .addObj _ delta,_ => delta
  | .updPeriod _ upd _,_ => upd
  | _,s => s.localUpd

def executeCmd (cfg : Config δ) (cmd : Command δ) (s : State δ) : State δ :=
  let s := { s with localUpd := cmd.newUpd s }
  match cmd with
  | .addObj obj delta => addObj cfg obj delta s
  | .remObj key => { s with works := (eraseName key s.works).getD s.works }
  | .remExtTrigObj key =>
    { s with extTrigWorks := (eraseTrig key s.extTrigWorks).getD s.extTrigWorks }
  | .remDev dev => { s with
      works := s.works.filter (fun w => w.dev ≠ dev)
      extTrigWorks := s.extTrigWorks.filter (fun w => w.dev ≠ dev) }
  | .updPeriod key newUpd obj => updPeriod cfg key newUpd obj s

/-- `AddObjPolling`: the device lists the object, then the thread is told. -/
def addObjPolling (cfg : Config δ) (obj : PollObj δ) (delta : Nat) (s : State δ) : State δ :=
  executeCmd cfg (.addObj obj delta) { s with polled := s.polled ++ [obj] }

def setUpd (key : ObjKey δ) (upd : Nat) (obj : PollObj δ) : PollObj δ :=
  if obj.key = key then { obj with upd := upd } else obj

/-- `UpdObjPollingPeriod`, with the period written in the object first. -/
def updObjPollingPeriod (cfg : Config δ) (key : ObjKey δ) (upd : Nat) (s : State δ) : State δ :=
  executeCmd cfg (.updPeriod key upd ⟨key,upd⟩)
    { s with polled := s.polled.map (setUpd key upd) }

/-- `RemObjPolling`: the command sent depends on the period the object has. -/
def remObjPolling (cfg : Config δ) (key : ObjKey δ) (s : State δ) : State δ :=
  match s.polled.find? (fun obj => obj.key = key) with
  | none => s
  | some obj =>
    let s := executeCmd cfg (if obj.upd = 0 then .remExtTrigObj key else .remObj key) s
    { s with polled := s.polled.filter (fun obj => obj.key ≠ key) }

/-- Polling of the whole device is stopped; it lists no object any more. -/
def stopPolling (cfg : Config δ) (dev : δ) (s : State δ) : State δ :=
  let s := executeCmd cfg (.remDev dev) s
  { s with polled := s.polled.filter (fun obj => obj.key.dev ≠ dev) }

/-- `one_more_poll` up to the call of the user code, which may send commands itself. -/
def beginPoll (s : State δ) : State δ :=
  match s.works with
  | [] => s
  | tmp::works => { s with works := works, inPoll := some tmp }

def WorkItem.next (w : WorkItem δ) : WorkItem δ := { w with wakeUpDate := w.wakeUpDate + w.update }

/-- Enter one object whose period was changed while it was being polled. -/
def addAuto (tmp : WorkItem δ) (entry : Nat × String) (s : State δ) : State δ :=
  match joinItem ⟨tmp.dev,tmp.type,entry.2⟩ entry.1 s.works with
  | some works => { s with works := works }
  | none =>
    let now := s.now + s.localUpd
    { s with now := now, works := insertInList ⟨tmp.dev,tmp.type,entry.1,[entry.2],now⟩ s.works }

def dropNames (entries : List (Nat × String)) (w : WorkItem δ) : WorkItem δ :=
  { w with name := w.name.filter (fun n => n ∉ entries.map Prod.snd) }

/-- Back in the list, unless no name is left. -/
def putBack (w : WorkItem δ) (s : State δ) : State δ :=
  if w.name = [] then s else { s with works := insertInList (WorkItem.next w) s.works }

/-- The rest of `one_more_poll`. -/
def endPoll (s : State δ) : State δ :=
  match s.inPoll with
  | none => s
  | some tmp =>
    let s := { s with inPoll := none }
    if s.autoUpd ≠ [] then
      let s' := putBack (dropNames s.autoUpd tmp) s
      { s.autoUpd.foldl (fun s e => addAuto tmp e s) s' with autoUpd := [] }
    else if s.remUpd ≠ [] then { putBack (dropNames s.remUpd tmp) s with remUpd := [] }
    else { s with works := insertInList (WorkItem.next tmp) s.works }

/-- The loop that moves late items on, at most `fuel` of them. -/
def discardLate (after : Int) : Nat → List (WorkItem δ) → List (WorkItem δ)
  | 0,works => works
  | _+1,[] => []
  | fuel+1,tmp::works =>
    if after - tmp.wakeUpDate > discardThreshold then
      discardLate after fuel (insertInList (WorkItem.next tmp) (tmp::works)).tail
    else tmp::works

def sleepUntil (after : Int) (works : List (WorkItem δ)) : Option Int :=
  match works with
  | [] => none
  | w::_ =>
    if (w.wakeUpDate - after).natAbs < discardThreshold then none else some (w.wakeUpDate - after)

def nbLate (after : Int) (works : List (WorkItem δ)) : Nat :=
  works.countP (fun w => after - w.wakeUpDate > discardThreshold)

/-- Second half of `compute_sleep_time`, for a list whose first date is `next`. -/
def computeSleep (after next : Int) (fuel : Nat) (s : State δ) : State δ :=
  let s := { s with previousNbLate := 0 }
  if next < after then
    if after - next < discardThreshold then { s with sleep := none }
    else
      let works := discardLate after fuel s.works
      { s with works := works, sleep := sleepUntil after works }
  else { s with sleep := some (next - after) }

def computeSleepTime (cfg : Config δ) (after : Int) (fuel : Nat) (s : State δ) : State δ :=
  match s.works with
  | [] => s
  | w::_ =>
    if cfg.pollingBef9 then computeSleep after w.wakeUpDate fuel s
    else
      let late := nbLate after s.works
      if late = 0 ∨ late = s.works.length then computeSleep after w.wakeUpDate fuel s
      else if s.previousNbLate = 0 then { s with previousNbLate := late, sleep := none }
      else if late < s.previousNbLate then { s with previousNbLate := late, sleep := none }
      else computeSleep after w.wakeUpDate fuel { s with sleep := none }

/-- What the thread and those who send it commands can do. With a poll in progress the
commands are the ones the polled code itself sends. -/
inductive Action (δ : Type)
  | clock (now : Int)
  | add (obj : PollObj δ) (delta : Nat)
  | upd (key : ObjKey δ) (upd : Nat)
  | rem (key : ObjKey δ)
  | stop (dev : δ)
  | beginPoll
  | endPoll
  | trigg
  | sleep (after : Int) (fuel : Nat)
deriving DecidableEq, Repr

/-- A trigger polls a copy of its item and leaves both lists alone. -/
def step (cfg : Config δ) (a : Action δ) (s : State δ) : State δ :=
  match a with
  | .clock now => { s with now := now }
  | .add obj delta => addObjPolling cfg obj delta s
  | .upd key upd => updObjPollingPeriod cfg key upd s
  | .rem key => remObjPolling cfg key s
  | .stop dev => stopPolling cfg dev s
  | .beginPoll => beginPoll s
  | .endPoll => endPoll s
  | .trigg => s
  | .sleep after fuel => computeSleepTime cfg after fuel s

def run (cfg : Config δ) (s : State δ) (acts : List (Action δ)) : State δ :=
  acts.foldl (fun s a => step cfg a s) s

/-- Steps that can happen: objects are added once, changed and removed while polled, and only
the polled code itself acts while a poll is in progress. -/
def Legal (s : State δ) : Action δ → Prop
  | .add obj _ => obj.key ∉ s.polled.map PollObj.key
  | .upd key _ => key ∈ s.polled.map PollObj.key
  | .rem key => key ∈ s.polled.map PollObj.key
  | .endPoll => s.inPoll ≠ none
  | .beginPoll => s.inPoll = none ∧ s.works ≠ []
  | .clock _ | .stop _ | .trigg | .sleep _ _ => s.inPoll = none

instance (s : State δ) : (a : Action δ) → Decidable (Legal s a)
  | .add _ _ => inferInstanceAs (Decidable (_ ∉ _))
  | .upd _ _ => inferInstanceAs (Decidable (_ ∈ _))
  | .rem _ => inferInstanceAs (Decidable (_ ∈ _))
  | .endPoll => inferInstanceAs (Decidable (_ ≠ _))
  | .beginPoll => inferInstanceAs (Decidable (_ ∧ _))
  | .clock _ => inferInstanceAs (Decidable (_ = _))
  | .stop _ => inferInstanceAs (Decidable (_ = _))
  | .trigg => inferInstanceAs (Decidable (_ = _))
  | .sleep _ _ => inferInstanceAs (Decidable (_ = _))

end PollThread

end CppTango.Polling
