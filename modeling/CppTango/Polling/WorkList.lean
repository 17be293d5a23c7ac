import CppTango.Data
import CppTango.Lib.Agenda
import CppTango.Lib.Keyed
import Mathlib.Algebra.Ring.Int.Defs

namespace CppTango.Polling.WorkList

open CppTango.Lib

inductive PollObjType
  | pollCmd | pollAttr | eventHeartbeat | storeSubdev
deriving DecidableEq, Repr

/-- A line of the work list, with those of the event system, which have no device. Dates and
durations are in nanoseconds. -/
structure WorkItem (δ : Type) where
  dev : Option δ
  type : PollObjType
  update : Int
  name : List String
  wakeUpDate : Int
  neededTime : Int
deriving DecidableEq, Repr

/-- The entry of the device's list at the index sent. -/
structure PollObj where
  type : PollObjType
  name : String
  upd : Int
deriving DecidableEq, Repr

inductive PollCmdCode
  | addObj | remObj | start | stop | updPeriod | remDev | remExtTrigObj | addHeartbeat | remHeartbeat
  | exit
deriving DecidableEq, Repr

structure PollThCmd (δ : Type) where
  cmdCode : PollCmdCode
  dev : δ
  obj : PollObj
  name : String
  type : PollObjType
  newUpd : Int
deriving DecidableEq, Repr

structure PollThread (δ : Type) where
  works : List (WorkItem δ)
  extTrigWorks : List (WorkItem δ)
  now : Int
  /-- `local_cmd.new_upd` of the last command -/
  localUpd : Int
  autoUpd : List (Int × String)
  remUpd : List (Int × String)
  pollingStop : Bool
  previousNbLate : Nat
  sleep : Option Int
deriving DecidableEq, Repr

structure Config (δ : Type) where
  idlVersion : δ → Nat
  pollingBef9 : Bool

def discardThreshold : Int := 20000000

def pollLoopNb : Int := 500

def millisecond : Int := 1000000

variable {δ : Type}

section Lists

def insertInList (newWork : WorkItem δ) : List (WorkItem δ) → List (WorkItem δ)
  | [] => [newWork]
  | w :: ws => if w.wakeUpDate < newWork.wakeUpDate then w :: insertInList newWork ws else newWork :: w :: ws

theorem insertInList_eq (w : WorkItem δ) (ws : List (WorkItem δ)) :
    insertInList w ws = enter WorkItem.wakeUpDate w ws := by
  induction ws with
  | nil => rfl
  | cons v ws ih =>
    rw [insertInList,enter,List.orderedInsert_cons]
    split
    next h => rw [if_neg (by omega),ih,enter]
    next h => rw [if_pos (by omega)]

variable [DecidableEq δ] (cfg : Config δ)

/-- Attributes of such a device share a line with others of the same period. -/
def Config.groups (dev : Option δ) (type : PollObjType) : Bool :=
  type = .pollAttr ∧ 4 ≤ ((dev.map cfg.idlVersion).getD 0) ∧ cfg.pollingBef9 = false

def sameLine (dev : Option δ) (type : PollObjType) (upd : Int) (w : WorkItem δ) : Bool :=
  w.dev = dev ∧ w.update = upd ∧ w.type = type

def addName (name : String) (w : WorkItem δ) : WorkItem δ := { w with name := w.name ++ [name] }

/-- An object goes in the line of its device, type and period, else in a line of its own. -/
def joinOr (add : List (WorkItem δ) → List (WorkItem δ)) (dev : Option δ) (type : PollObjType) (upd : Int)
    (name : String) (works : List (WorkItem δ)) : List (WorkItem δ) :=
  if works.any (sameLine dev type upd) then updateFirst (sameLine dev type upd) (addName name) works
  else add works

def addInsertInList (newWork : WorkItem δ) (works : List (WorkItem δ)) : List (WorkItem δ) :=
  if cfg.groups newWork.dev newWork.type then
    joinOr (insertInList newWork) newWork.dev newWork.type newWork.update (newWork.name.headD "") works
  else insertInList newWork works

def hasName (dev : δ) (type : PollObjType) (name : String) (w : WorkItem δ) : Bool :=
  w.dev = some dev ∧ w.type = type ∧ name ∈ w.name

/-- Take a name out of the first line that has it, and the line when it is then empty. -/
def eraseName (dev : δ) (type : PollObjType) (name : String) : List (WorkItem δ) → List (WorkItem δ)
  | [] => []
  | w :: ws =>
    if hasName dev type name w then
      if w.name.erase name = [] then ws else { w with name := w.name.erase name } :: ws
    else w :: eraseName dev type name ws

/-- Only the first name of an externally triggered item is looked at. -/
def isTrig (dev : δ) (type : PollObjType) (name : String) (w : WorkItem δ) : Bool :=
  w.dev = some dev ∧ w.type = type ∧ w.name.head? = some name

end Lists

section Commands
variable [DecidableEq δ] (cfg : Config δ) (cmd : PollThCmd δ) (s : PollThread δ)

def addObj : PollThread δ :=
  let wo : WorkItem δ := ⟨some cmd.dev,cmd.obj.type,cmd.obj.upd,[cmd.obj.name],s.now + cmd.newUpd,0⟩
  if cfg.groups wo.dev wo.type = true ∧ s.works.any (sameLine wo.dev wo.type wo.update) = true then
    { s with works := updateFirst (sameLine wo.dev wo.type wo.update) (addName cmd.obj.name) s.works }
  else if wo.update ≠ 0 then { s with works := insertInList wo s.works }
  else { s with extTrigWorks := s.extTrigWorks ++ [{ wo with wakeUpDate := 0 }] }

/-- The end of the update command: an object not met in the work list is looked for in the
externally triggered one, else it is the object being polled. `names` are those already put in the
work item. -/
def updNotFound (names : List String) (s : PollThread δ) : PollThread δ :=
  if s.extTrigWorks.any (isTrig cmd.dev cmd.type cmd.name) then
    { s with
      extTrigWorks := s.extTrigWorks.eraseP (isTrig cmd.dev cmd.type cmd.name)
      works := insertInList ⟨some cmd.dev,cmd.type,cmd.newUpd,names ++ [cmd.name],s.now,0⟩ s.works }
  else { s with autoUpd := s.autoUpd ++ [(cmd.newUpd,cmd.name)] }

def updPeriod : PollThread δ :=
  let found := s.works.any (hasName cmd.dev cmd.type cmd.name)
  let works := eraseName cmd.dev cmd.type cmd.name s.works
  if cmd.newUpd ≠ 0 then
    if s.works ≠ [] then
      let now := s.now + cmd.newUpd
      { s with
        now := now
        works := addInsertInList cfg ⟨some cmd.dev,cmd.type,cmd.newUpd,[cmd.name],now,0⟩ works
        remUpd := if found then s.remUpd else s.remUpd ++ [(cmd.newUpd,cmd.name)] }
    else updNotFound cmd [] s
  else
    let wo : WorkItem δ := ⟨some cmd.dev,cmd.obj.type,cmd.obj.upd,[cmd.obj.name],0,0⟩
    let s := { s with works := works, extTrigWorks := s.extTrigWorks ++ [wo] }
    if found then s else updNotFound cmd [cmd.obj.name] s

def heartbeat (now : Int) : WorkItem δ :=
  ⟨none,.eventHeartbeat,9000 * millisecond,["Event heartbeat"],now,2 * millisecond⟩

def executeCmd (s : PollThread δ) (cmd : PollThCmd δ) : PollThread δ :=
  let s := { s with localUpd := cmd.newUpd }
  match cmd.cmdCode with
  | .addObj => addObj cfg cmd s
  | .remObj => { s with works := eraseName cmd.dev cmd.type cmd.name s.works }
  | .remExtTrigObj =>
    { s with extTrigWorks := s.extTrigWorks.eraseP (isTrig cmd.dev cmd.type cmd.name) }
  | .remDev =>
    { s with
      works := s.works.filter (fun w => w.dev ≠ some cmd.dev)
      extTrigWorks := s.extTrigWorks.filter (fun w => w.dev ≠ some cmd.dev) }
  | .updPeriod => updPeriod cfg cmd s
  | .addHeartbeat => { s with works := insertInList (heartbeat s.now) s.works }
  | .remHeartbeat => { s with works := s.works.eraseP (fun w => w.type = .eventHeartbeat) }
  | .start => { s with pollingStop := false }
  | .stop => { s with pollingStop := true }
  | .exit => s

end Commands

section Polling
variable [DecidableEq δ] (cfg : Config δ)

def WorkItem.next (w : WorkItem δ) : WorkItem δ := { w with wakeUpDate := w.wakeUpDate + w.update }

/-- Enter one object whose period was changed while it was being polled. -/
def addAuto (tmp : WorkItem δ) (s : PollThread δ) (entry : Int × String) : PollThread δ :=
  if s.works.any (sameLine tmp.dev tmp.type entry.1) then
    { s with works := updateFirst (sameLine tmp.dev tmp.type entry.1) (addName entry.2) s.works }
  else
    let now := s.now + s.localUpd
    { s with now := now, works := insertInList ⟨tmp.dev,tmp.type,entry.1,[entry.2],now,0⟩ s.works }

def dropNames (entries : List (Int × String)) (w : WorkItem δ) : WorkItem δ :=
  { w with name := w.name.filter (fun n => n ∉ entries.map Prod.snd) }

/-- Back in the list, unless no name is left. -/
def putBack (w : WorkItem δ) (s : PollThread δ) : PollThread δ :=
  if w.name = [] then s else { s with works := insertInList w.next s.works }

/-- The rest of `one_more_poll`, with the item that was polled. -/
def endPoll (tmp : WorkItem δ) (s : PollThread δ) : PollThread δ :=
  if s.autoUpd ≠ [] then
    { s.autoUpd.foldl (addAuto tmp) (putBack (dropNames s.autoUpd tmp) s) with autoUpd := [] }
  else if s.remUpd ≠ [] then { putBack (dropNames s.remUpd tmp) s with remUpd := [] }
  else { s with works := insertInList tmp.next s.works }

/-- The code that is polled takes the time `needed` and may send commands, which the thread
executes at once. -/
def oneMorePoll (cmds : List (PollThCmd δ)) (needed : Int) (s : PollThread δ) : PollThread δ :=
  match s.works with
  | [] => s
  | tmp :: works =>
    let s := { s with works := works }
    if s.pollingStop then endPoll tmp s
    else endPoll { tmp with neededTime := needed } (cmds.foldl (executeCmd cfg) s)

end Polling

section Tuning

/-- When an item polled from `start` on, every `period`, is polled the last time up to `date`. -/
def lastPoll (start period date : Int) : Int :=
  if start < date then start + (date - start) / period * period else start

/-- The date of an item tuned behind its predecessor. -/
def tunedDate (gap : Int) (prev w : WorkItem δ) : Int :=
  lastPoll prev.wakeUpDate prev.update w.wakeUpDate + (prev.neededTime + gap)

def tuned (gap : Int) (prev w : WorkItem δ) : WorkItem δ := { w with wakeUpDate := tunedDate gap prev w }

/-- Items that are polled before `nextTuning` get a new date; `prev` has its own already. -/
def tuneFrom (nextTuning gap : Int) (prev : WorkItem δ) : List (WorkItem δ) → List (WorkItem δ)
  | [] => []
  | w :: ws =>
    let wo := if w.wakeUpDate < nextTuning then tuned gap prev w else w
    wo :: tuneFrom nextTuning gap wo ws

def neededSum (works : List (WorkItem δ)) : Int := (works.map WorkItem.neededTime).sum

def minUpd (first : WorkItem δ) (rest : List (WorkItem δ)) : Int :=
  rest.foldl (fun m w => if m > w.update then w.update else m) first.update

def maxDeltaNeeded (first : WorkItem δ) (rest : List (WorkItem δ)) : Int :=
  (minUpd first rest - neededSum (first :: rest)) / (rest.length + 1 : Nat)

def nextTuning (now : Int) (first : WorkItem δ) (rest : List (WorkItem δ)) : Int :=
  now + pollLoopNb * minUpd first rest

/-- The list that is not tuned from the needed times: items are never before their predecessor. -/
def shiftFrom (prev : WorkItem δ) : List (WorkItem δ) → List (WorkItem δ)
  | [] => []
  | w :: ws =>
    let diff := w.wakeUpDate - prev.wakeUpDate
    let w := if diff < 0 then { w with wakeUpDate := w.wakeUpDate - diff } else w
    w :: shiftFrom w ws

def tuneList (fromNeeded : Bool) (now : Int) (works : List (WorkItem δ)) : List (WorkItem δ) :=
  match works with
  | [] => []
  | first :: rest =>
    if rest = [] then works
    else if fromNeeded then
      if neededSum works > minUpd first rest then works
      else first :: tuneFrom (nextTuning now first rest) (maxDeltaNeeded first rest) first rest
    else first :: shiftFrom first rest

end Tuning

section Sleep
variable (cfg : Config δ)

/-- The loop that moves late items on, for so many rounds. -/
def discardLoop (after : Int) : Nat → List (WorkItem δ) → List (WorkItem δ)
  | 0,works => works
  | _+1,[] => []
  | n+1,tmp :: works =>
    if after - tmp.wakeUpDate > discardThreshold then
      discardLoop after n (insertInList tmp.next (tmp :: works)).tail
    else tmp :: works

/-- There are never more rounds than nanoseconds to catch up. -/
def discardLate (after : Int) (works : List (WorkItem δ)) : List (WorkItem δ) :=
  discardLoop after (behind WorkItem.wakeUpDate (after - discardThreshold) works) works

def nbLate (after : Int) (works : List (WorkItem δ)) : Nat :=
  works.countP (fun w => after - w.wakeUpDate > discardThreshold)

def sleepUntil (after : Int) : List (WorkItem δ) → Option Int
  | [] => none
  | w :: _ =>
    if (w.wakeUpDate - after).natAbs < discardThreshold then none else some (w.wakeUpDate - after)

/-- The analysis of a list whose first date is `next`. -/
def analyse (after next : Int) (s : PollThread δ) : PollThread δ :=
  let s := { s with previousNbLate := 0 }
  if next < after then
    if after - next < discardThreshold then { s with sleep := none }
    else
      let works := discardLate after s.works
      { s with works := works, sleep := sleepUntil after works }
  else { s with sleep := some (next - after) }

def computeSleepTime (after : Int) (s : PollThread δ) : PollThread δ :=
  match s.works with
  | [] => s
  | w :: _ =>
    if cfg.pollingBef9 then analyse after w.wakeUpDate s
    else
      let late := nbLate after s.works
      if late = 0 ∨ late = s.works.length then analyse after w.wakeUpDate s
      else if s.previousNbLate = 0 then { s with previousNbLate := late, sleep := none }
      else if late < s.previousNbLate then { s with previousNbLate := late, sleep := none }
      else analyse after w.wakeUpDate { s with sleep := none }

end Sleep

end CppTango.Polling.WorkList
