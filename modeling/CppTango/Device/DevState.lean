import CppTango.Device.AlarmLevels

namespace CppTango.Device.Alarm

open CppTango.Lib

/-- What a read method may do with its attribute; a pointer that is null comes with a size that is
not 0. -/
inductive Act
  | setValue (v : Value)
  | setValueQuality (v : Value) (quality : AttrQuality)
  | setNull (n : Nat)
  | setQuality (quality : AttrQuality)
deriving DecidableEq

inductive Ends
  | returns | devFailed | other
deriving DecidableEq, Repr

/-- What the methods of an attribute do in one call. -/
structure Method where
  isAllowed : Bool
  acts : List Act
  ends : Ends
deriving DecidableEq

/-- Why a run does not go on: a level is evaluated without the value, or an evaluation stops. -/
inductive Halt
  | noValue
  | stop (s : Stop)

def Value.size : Value → Nat
  | .ints xs => xs.length
  | .encoded vs => vs.length

/-- A scalar has one element, whatever dimensions are given. -/
def Value.fits (v : Value) (a : Attribute) : Bool :=
  match v,a.dataType with
  | .ints xs,.int _ => decide (a.dataFormat = .scalar → xs.length = 1)
  | .encoded vs,.encoded => decide (vs.length = 1)
  | _,_ => false

def Reading.resetValue (r : Reading) : Reading := {r with value := none}

def Reading.deleteSeq (r : Reading) : Reading := {r with value := none, dataSize := 0}

def setValue (v : Value) : Reading := ⟨some v,v.size,.valid,fun _ => false⟩

def isAlarmedQuality (q : AttrQuality) : Bool := decide (q = .alarm ∨ q = .warning)

section Attribute
variable (a : Attribute)

/-- A value of another type changes nothing; a null pointer is noticed when size and quality are set. -/
def Act.apply (r : Reading) : Act → Reading
  | .setValue v => if v.fits a then Alarm.setValue v else r
  | .setValueQuality v q =>
    if v.fits a then
      let r := {Alarm.setValue v with quality := q}
      if q = .invalid ∧ a.dataType ≠ .encoded then r.deleteSeq else r
    else r
  | .setNull n => {r with dataSize := n + 1, quality := .valid}
  | .setQuality q => {r with quality := q}

def Method.after (m : Method) (r : Reading) : Reading := m.acts.foldl (Act.apply a) r.resetValue

/-- `check_alarm` goes on to one of the level checks. -/
def evaluatesLevel (r : Reading) : Prop :=
  (a.isFwd = true ∨ r.quality = .valid) ∧
    (a.alarmConf .minLevel = true ∨ a.alarmConf .maxLevel = true ∨
      isAlarmedQuality r.quality = false ∧ (a.alarmConf .minWarn = true ∨ a.alarmConf .maxWarn = true))

instance (r : Reading) : Decidable (evaluatesLevel a r) := inferInstanceAs (Decidable (_ ∧ _))

def evaluateAlarm (now : Int) (r : Reading) : Except Halt (Bool × Reading) :=
  if evaluatesLevel a r ∧ r.elements a = none then .error .noValue
  else (checkAlarm a now r).mapError .stop

/-- The reading pass of `read_attributes_no_except`: whether it fails, and what it leaves. -/
def readWanted (now : Int) (m : Method) (r : Reading) : Except Halt (Bool × Reading) :=
  if m.isAllowed = false then .ok (true,r)
  else if m.ends ≠ .returns then .ok (true,m.after a r)
  else if a.isAlarmed = true ∧ (m.after a r).quality ≠ .invalid then do
    let (_,r) ← evaluateAlarm a now (m.after a r)
    pure (false,r)
  else .ok (false,m.after a r)

/-- The set value of a write attribute takes the place of a reading. -/
def setRvalue (m : Method) (r : Reading) : Bool × Reading :=
  (decide (m.ends ≠ .returns),m.acts.foldl (Act.apply a) r)

/-- The reading of `dev_state`: whether it goes on, `wanted_date`, and what it leaves. -/
def readForState (m : Method) (r : Reading) : Bool × Bool × Reading :=
  if m.isAllowed = false then (true,true,r.resetValue)
  else
    let r := m.after a r
    if m.ends = .other then (false,false,r)
    else if m.ends = .devFailed ∨ r.quality ≠ .invalid ∧ r.value = none then
      let r := if r.value = none then {r with quality := .invalid} else r
      (true,true,if r.quality ≠ .invalid then r.deleteSeq else r)
    else (true,false,r)

def isReadable : Bool := decide (a.writable ≠ .write) || a.isFwd

end Attribute

/-- A device of IDL 3 or later without polled attributes. -/
structure DeviceImpl where
  attrs : List Attribute
  forceAlarmState : Bool

structure Data where
  readings : Nat → Reading
  deviceState : DevState
  alarmStateUser : Int
  alarmStateKernel : Int

/-- `time_t` of a time in nanoseconds. -/
def timeT (now : Int) : Int := now / 1000000000

def Data.setState (d : Data) (now : Int) (newState : DevState) : Data :=
  {d with
    deviceState := newState
    alarmStateUser := if newState = .alarm then timeT now else 0}

/-- The library finds an alarm. -/
def Data.toAlarm (d : Data) (now : Int) : Data :=
  if d.deviceState ≠ .alarm then {d with deviceState := .alarm, alarmStateKernel := timeT now} else d

/-- It finds none: an ALARM of its own goes. -/
def Data.backToOn (d : Data) : Data :=
  if d.alarmStateUser < d.alarmStateKernel then {d with deviceState := .on} else d

variable (D : DeviceImpl)

section DevState

def alarmList : List Nat :=
  (List.range D.attrs.length).filter (fun i =>
    D.attrs[i]?.any (fun a => a.isAlarmed && decide (a.writable ≠ .write)))

/-- The attributes `dev_state` reads; an exception that is not a `DevFailed` ends it. -/
def stateReads (methods : Nat → Method) : List Nat → (Nat → Reading) →
    Bool × (Nat → Bool) × (Nat → Reading)
  | [],readings => (true,fun _ => true,readings)
  | i :: is,readings =>
    match D.attrs[i]? with
    | none => stateReads methods is readings
    | some a =>
      let (goesOn,wantedDate,r) := readForState a (methods i) (readings i)
      let readings := Function.update readings i r
      if goesOn then
        let (goesOn,wantedDates,readings) := stateReads methods is readings
        (goesOn,Function.update wantedDates i wantedDate,readings)
      else (false,fun _ => true,readings)

/-- `MultiAttribute::check_alarm`. -/
def checkAlarms (now : Int) : List Nat → (Nat → Reading) → Except Halt (Bool × (Nat → Reading))
  | [],readings => .ok (false,readings)
  | i :: is,readings =>
    match D.attrs[i]? with
    | none => checkAlarms now is readings
    | some a =>
      let here := decide ((readings i).quality = .alarm)
      if (readings i).quality ≠ .invalid then do
        let (hit,r) ← evaluateAlarm a now (readings i)
        let (rest,readings) ← checkAlarms now is (Function.update readings i r)
        pure (here || hit || rest,readings)
      else checkAlarms now is readings

def freeRead (wantedDate : Nat → Bool) (readings : Nat → Reading) (i : Nat) : Nat → Reading :=
  if wantedDate i = false ∧ (readings i).quality ≠ .invalid then
    Function.update readings i (readings i).deleteSeq
  else readings

def isAttQualityAlarmed (readings : Nat → Reading) : Bool :=
  (List.range D.attrs.length).any (fun i => isAlarmedQuality (readings i).quality)

/-- The end of `dev_state`: the qualities of all attributes are looked at. -/
def settle (now : Int) (setAlrm : Bool) (d : Data) : Data :=
  if setAlrm = false ∧ d.deviceState ≠ .alarm then
    if isAttQualityAlarmed D d.readings then d.toAlarm now else {d with deviceState := .on}
  else d

/-- `wanted` are the attributes read with the state; there is no state if an exception goes through. -/
def devState (now : Int) (wanted : List Nat) (methods : Nat → Method) (d : Data) :
    Except Halt (Option DevState × Data) :=
  if d.deviceState ≠ .fault ∧ D.forceAlarmState = true then .ok (some .alarm,d)
  else if d.deviceState = .on ∨ d.deviceState = .alarm then
    let list := (alarmList D).filter (fun i => i ∉ wanted)
    if list ≠ [] then
      let (goesOn,wantedDate,readings) := stateReads D methods list d.readings
      if goesOn then do
        let (setAlrm,readings) ← checkAlarms D now (alarmList D) readings
        let d := {d with readings := list.foldl (freeRead wantedDate) readings}
        let d := settle D now setAlrm (if setAlrm then d.toAlarm now else d.backToOn)
        pure (some d.deviceState,d)
      else .ok (none,{d with readings := readings})
    else
      let d := settle D now false d.backToOn
      .ok (some d.deviceState,d)
  else .ok (some d.deviceState,d)

end DevState

section Calls

/-- The pass over the attributes that are read; it leaves the others for the next pass. -/
def readPass (now : Int) : List (Nat × Method) → (Nat → Reading) →
    Except Halt (List Bool × (Nat → Reading))
  | [],readings => .ok ([],readings)
  | (i,m) :: wanted,readings =>
    match D.attrs[i]?.filter isReadable with
    | none => do
      let (failed,readings) ← readPass now wanted readings
      pure (false :: failed,readings)
    | some a => do
      let (fails,r) ← readWanted a now m (readings i)
      let (failed,readings) ← readPass now wanted (Function.update readings i r)
      pure (fails :: failed,readings)

/-- The pass over the write attributes. -/
def writePass : List (Nat × Method) → (Nat → Reading) → List Bool × (Nat → Reading)
  | [],readings => ([],readings)
  | (i,m) :: wanted,readings =>
    match D.attrs[i]?.filter (fun a => !isReadable a) with
    | none =>
      let (failed,readings) := writePass wanted readings
      (false :: failed,readings)
    | some a =>
      let (fails,r) := setRvalue a m (readings i)
      let (failed,readings) := writePass wanted (Function.update readings i r)
      (fails :: failed,readings)

/-- The values go into the reply; a client of IDL 3 gets no `DevEncoded`. -/
def replyPass (idl : Nat) (readings : Nat → Reading) (n : Nat × Bool) : Nat → Reading :=
  match D.attrs[n.1]? with
  | none => readings
  | some a =>
    if n.2 = false ∧ (readings n.1).quality ≠ .invalid ∧ (readings n.1).value ≠ none ∧
        ¬(idl = 3 ∧ a.dataType = .encoded) then
      Function.update readings n.1 (readings n.1).deleteSeq
    else readings

/-- A call for attributes, and for the state if `state` says what the methods do that computing it
calls. -/
def readAttributes (idl : Nat) (now : Int) (wanted : List (Nat × Method)) (state : Option (Nat → Method))
    (d : Data) : Except Halt (Option DevState × Data) := do
  let (failed,readings) ← readPass D now wanted d.readings
  let (failedWrite,readings) := writePass D wanted readings
  let d := {d with readings := readings}
  let reply (d : Data) : Data :=
    {d with
      readings := ((wanted.map Prod.fst).zip (failed.zipWith or failedWrite)).foldl (replyPass D idl)
        d.readings}
  match state with
  | none => pure (none,reply d)
  | some methods =>
    let read := (wanted.map Prod.fst).filter (fun i => D.attrs[i]?.any isReadable)
    let (s,d) ← devState D now read methods d
    pure (s,if s = none then d else reply d)

/-- What happens to a device. -/
inductive Call
  | readAttributes (idl : Nat) (now : Int) (wanted : List (Nat × Method)) (state : Option (Nat → Method))
  | devState (now : Int) (methods : Nat → Method)
  | setState (now : Int) (newState : DevState)

def step (d : Data) : Call → Except Halt Data
  | .readAttributes idl now wanted state => (readAttributes D idl now wanted state d).map Prod.snd
  | .devState now methods => (devState D now [] methods d).map Prod.snd
  | .setState now newState => .ok (d.setState now newState)

end Calls

end CppTango.Device.Alarm
