import CppTango.Device.MultiAttribute
import CppTango.Lib.Machine
import CppTango.Lib.Outcome

namespace CppTango.Device.Alarm

open CppTango.Lib

inductive IntKind
  | short | long | long64 | uchar | ushort | ulong | ulong64
deriving DecidableEq, Repr

def IntKind.type : IntKind → IntType
  | .short => ⟨true,16⟩
  | .long => ⟨true,32⟩
  | .long64 => ⟨true,64⟩
  | .uchar => ⟨false,8⟩
  | .ushort => ⟨false,16⟩
  | .ulong => ⟨false,32⟩
  | .ulong64 => ⟨false,64⟩

inductive DataType
  | int (k : IntKind) | encoded
deriving DecidableEq, Repr

inductive AlarmFlag
  | minLevel | maxLevel | rds | minWarn | maxWarn
deriving DecidableEq, Repr

def AlarmFlag.all : List AlarmFlag := [.minLevel,.maxLevel,.rds,.minWarn,.maxWarn]

theorem AlarmFlag.mem_all (f : AlarmFlag) : f ∈ all := by
  cases f <;> decide

/-- A bitset over the alarm flags. -/
abbrev AlarmBits := AlarmFlag → Bool

/-- A value sequence. -/
inductive Value
  | ints (xs : List Int)
  | encoded (vs : List DevEncoded)
deriving DecidableEq

/-- The members of a writable attribute that belong to its last set value. -/
structure Written where
  writeSec : Int
  writeUsec : Int
  arrayVal : List Int
  encodedVal : DevEncoded
  deltaVal : Int
  deltaT : Int

/-- What does not change while an attribute is read; `written` is there for a `WAttribute`. -/
structure Attribute where
  name : String
  dataType : DataType
  dataFormat : AttrDataFormat
  writable : AttrWriteType
  isFwd : Bool
  alarmConf : AlarmBits
  minAlarm : Int
  maxAlarm : Int
  minWarning : Int
  maxWarning : Int
  written : Option Written

/-- What reading an attribute changes. -/
structure Reading where
  value : Option Value
  dataSize : Nat
  quality : AttrQuality
  alarm : AlarmBits

/-- What ends an evaluation: an exception, an element that is not there, or a number that the type
of the computation does not hold. -/
inductive Stop
  | thrown (errors : DevErrorList)
  | invalidRead
  | overflow

def Reading.raise (r : Reading) (quality : AttrQuality) (flag : AlarmFlag) : Reading :=
  {r with quality := quality, alarm := Function.update r.alarm flag true}

section Levels
variable (a : Attribute) (alarmType : AttrQuality)

/-- An element of the integers of a value sequence. -/
def intAt (value : Option Value) (i : Nat) : Except Stop Int :=
  match value with
  | some (.ints xs) => (xs[i]?).elim (.error .invalidRead) .ok
  | _ => .error .invalidRead

/-- One of the two loops of a level check, made if the bit of the bound is set. -/
def checkBound (flag : AlarmFlag) (elt : Nat → Except Stop Int) (n : Nat) (out : Int → Bool)
    (r : Reading) : Except Stop (Bool × Reading) :=
  if a.alarmConf flag then do
    let hit ← searchFrom (fun i => (elt i).map out) 0 n
    pure (if hit then (true,r.raise alarmType flag) else (false,r))
  else .ok (false,r)

def checkBounds (min max : AlarmFlag) (elt : Nat → Except Stop Int) (n : Nat) (minValue maxValue : Int)
    (r : Reading) : Except Stop (Bool × Reading) := do
  let (low,r) ← checkBound a alarmType min elt n (fun x => x ≤ minValue) r
  let (high,r) ← checkBound a alarmType max elt n (fun x => maxValue ≤ x) r
  pure (low || high,r)

def unknownAlarmType : Stop :=
  .thrown (thrown "API_InternalError" "Unknown alarm_type" "Attribute::general_check_alarm")

def generalCheckAlarm (minValue maxValue : Int) (r : Reading) : Except Stop (Bool × Reading) :=
  let check (min max : AlarmFlag) :=
    checkBounds a alarmType min max (intAt r.value) r.dataSize minValue maxValue r
  match alarmType with
  | .alarm => check .minLevel .maxLevel
  | .warning => check .minWarn .maxWarn
  | _ => .error unknownAlarmType

/-- The version for a `DevEncoded`, which looks at the same flags for both alarm types. -/
def generalCheckDevencodedAlarm (minValue maxValue : Int) (r : Reading) :
    Except Stop (Bool × Reading) :=
  let check (min max : AlarmFlag) :=
    match r.value with
    | some (.encoded (v :: _)) =>
      let data := v.encodedData.map (fun x => (x.toNat : Int))
      checkBounds a alarmType min max (intAt (some (.ints data))) data.length minValue maxValue r
    | _ => .error .invalidRead
  match alarmType with
  | .alarm => check .minLevel .maxLevel
  | .warning => check .minLevel .maxLevel
  | _ => .error unknownAlarmType

def checkLevelAlarm (r : Reading) : Except Stop (Bool × Reading) :=
  match a.dataType with
  | .int _ => generalCheckAlarm a .alarm a.minAlarm a.maxAlarm r
  | .encoded => generalCheckDevencodedAlarm a .alarm a.minAlarm a.maxAlarm r

def checkWarnAlarm (r : Reading) : Except Stop (Bool × Reading) :=
  match a.dataType with
  | .int _ => generalCheckAlarm a .warning a.minWarning a.maxWarning r
  | .encoded => generalCheckDevencodedAlarm a .warning a.minWarning a.maxWarning r

end Levels

section Rds

def computed (t : IntType) (x : Int) : Except Stop Int :=
  (t.computed x).elim (.error .overflow) .ok

def deltaReached (t : IntType) (deltaVal lastVal currVal : Int) : Except Stop Bool := do
  let delta ← computed t (if currVal < lastVal then lastVal - currVal else currVal - lastVal)
  pure (decide (deltaVal ≤ delta))

/-- Whether one element is too far from what was set; a signed difference is only computed where
it fits. -/
def outOfRange (t : IntType) (deltaVal lastVal currVal : Int) : Except Stop Bool :=
  if t.signed then
    if lastVal < 0 then do
      let limit ← computed t (t.max + lastVal)
      if limit < currVal then pure true else deltaReached t deltaVal lastVal currVal
    else do
      let limit ← computed t (t.min + lastVal)
      if currVal ≤ limit then pure true else deltaReached t deltaVal lastVal currVal
  else deltaReached t deltaVal lastVal currVal

def raisedRds (hit : Bool) (r : Reading) : Bool × Reading :=
  if hit then (true,r.raise .alarm .rds) else (false,r)

/-- `val_seq` is the whole value sequence, with what was appended to it. -/
def checkRdsOutOfRange (k : IntKind) (arrayVal valSeq : List Int) (dataFormat : AttrDataFormat)
    (deltaVal : Int) (r : Reading) : Except Stop (Bool × Reading) := do
  let nbWritten := arrayVal.length
  let nbRead := if dataFormat = .scalar then 1 else valSeq.length
  let hit ← searchFrom (fun i => do
    let lastVal ← intAt (some (.ints arrayVal)) i
    let currVal ← intAt (some (.ints valSeq)) i
    outOfRange k.type deltaVal lastVal currVal) 0 (min nbRead nbWritten)
  pure (raisedRds hit r)

/-- The version for a `DevEncoded`. -/
def checkRdsEncoded (encodedVal v : DevEncoded) (deltaVal : Int) (r : Reading) : Bool × Reading :=
  let far (x y : UInt8) : Bool := decide (deltaVal ≤ |(x.toNat : Int) - (y.toNat : Int)|)
  if encodedVal.encodedFormat ≠ v.encodedFormat then (true,r.raise .alarm .rds)
  else raisedRds ((encodedVal.encodedData.zip v.encodedData).any (fun p => far p.1 p.2)) r

/-- `now` is in nanoseconds; an attribute that is not a `WAttribute` has no such alarm. -/
def checkRdsAlarm (a : Attribute) (now : Int) (r : Reading) : Except Stop (Bool × Reading) :=
  match a.written with
  | none => .ok (false,r)
  | some w =>
    if w.writeSec = 0 then .ok (false,r)
    else if w.deltaT * 1000000 ≤ now - (w.writeSec * 1000000000 + w.writeUsec * 1000) then
      match a.dataType,r.value with
      | .int k,some (.ints xs) => checkRdsOutOfRange k w.arrayVal xs a.dataFormat w.deltaVal r
      | .encoded,some (.encoded (v :: _)) => .ok (checkRdsEncoded w.encodedVal v w.deltaVal r)
      | _,_ => .error .invalidRead
    else .ok (false,r)

end Rds

def noAlarmDefined (a : Attribute) : Stop :=
  .thrown (thrown "API_AttrNoAlarm" ("No alarm defined for attribute " ++ a.name)
    "Attribute::check_alarm")

def Attribute.isAlarmed (a : Attribute) : Bool := AlarmFlag.all.any a.alarmConf

section Check
variable (a : Attribute)

def checkLevels (r : Reading) : Except Stop (Bool × Reading) :=
  if a.alarmConf .minLevel ∨ a.alarmConf .maxLevel then checkLevelAlarm a r else .ok (false,r)

/-- Warnings are looked for if nothing was found before. -/
def checkWarnings (returned : Bool) (r : Reading) : Except Stop (Bool × Reading) :=
  if returned = false ∧ (a.alarmConf .minWarn ∨ a.alarmConf .maxWarn) then checkWarnAlarm a r
  else .ok (false,r)

def checkRds (now : Int) (r : Reading) : Except Stop (Bool × Reading) :=
  if a.alarmConf .rds then checkRdsAlarm a now r else .ok (false,r)

/-- The checks behind the test of the quality. -/
def evaluate (now : Int) (returned : Bool) (r : Reading) : Except Stop (Bool × Reading) := do
  let (level,r) ← checkLevels a r
  let (warn,r) ← checkWarnings a (returned || level) r
  let (rds,r) ← checkRds a now r
  pure (returned || level || warn || rds,r)

def checkAlarm (now : Int) (r : Reading) : Except Stop (Bool × Reading) :=
  let returned := decide (r.quality = .alarm ∨ r.quality = .warning)
  if a.isAlarmed = false then .error (noAlarmDefined a)
  else if a.isFwd = false ∧ r.quality ≠ .valid then .ok (returned,r)
  else evaluate a now returned r

end Check

/-- The set value is put behind what was read; a `DevEncoded` sequence gets it as its second
element. -/
def addWriteValue (w : Written) (r : Reading) : Reading :=
  match r.value with
  | some (.ints xs) => {r with value := some (.ints (xs ++ w.arrayVal))}
  | some (.encoded vs) => {r with value := some (.encoded (vs.take 1 ++ [w.encodedVal]))}
  | none => r

end CppTango.Device.Alarm
