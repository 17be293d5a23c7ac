import CppTango.Device.Logging
import CppTango.Lib.Steps

namespace CppTango.Device.Logging
open CppTango.Lib

/-- An appender with its class. A rolling file has a size; for another class it is `none`, unless the size of a file was
written into the object. An appender that was opened stays valid. -/
structure Target where
  name : List Char
  kind : TargetType
  maximumFileSize : Option Nat
deriving DecidableEq, Repr

structure TargetLogger where
  name : String
  level : Level
  targets : List Target

def TargetLogger.toLogger (l : TargetLogger) : Logger := ⟨l.name,l.level,l.targets.map (fun t => ⟨t.name,true⟩)⟩

/-- `_log_path` and `_rft`. -/
structure Settings where
  logPath : List Char
  rft : Nat

section Requests
variable (g : Settings) (l : TargetLogger)

def newSize (kind : TargetType) : Option Nat := if kind = .file then some (g.rft * 1024) else none

def TargetLogger.add (opens : List Char → Bool) (inTypeName : String) : TargetLogger :=
  let (type,name) := getTargetTypeAndName (lowerName inTypeName)
  match targetType type with
  | none => l
  | some kind =>
    if kind = .device ∧ name = defaultTargetName then l
    else
      let full := appenderName g.logPath l.toLogger type name kind
      if l.targets.any (·.name = full) then l
      else if kind = .console ∨ opens full = true then
        { l with targets := l.targets ++ [⟨full,kind,newSize g kind⟩] }
      else l

def TargetLogger.remove (typeName : String) : TargetLogger :=
  let (type,name) := getTargetTypeAndName (lowerName typeName)
  match targetType type with
  | none => l
  | some kind =>
    let name := if kind = .console then defaultConsoleName else name
    if name = ['*'] then { l with targets := l.targets.filter (fun t => (Lib.find (type ++ sep) t.name).isNone) }
    else { l with targets := l.targets.filter (fun t => t.name ≠ appenderName g.logPath l.toLogger type name kind) }

def minRollingThreshold : Nat := 500

def maxRollingThreshold : Nat := 1024 * 1024

def clamped (rtf : Nat) : Nat :=
  if rtf < minRollingThreshold then minRollingThreshold
  else if rtf > maxRollingThreshold then maxRollingThreshold
  else rtf

/-- What has the text of a file target in its name is taken for a file target. -/
def TargetLogger.setRollingFileThreshold (rtf : Nat) : TargetLogger :=
  { l with targets := l.targets.map fun t =>
      if (Lib.find ("file".toList ++ sep) t.name).isSome then { t with maximumFileSize := some (clamped rtf * 1024) }
      else t }

/-- The command does the same to the logger, and nothing when it throws. -/
theorem add_toLogger (env : Env) (rft : Nat) (inTypeName : String) :
    (l.add ⟨env.logPath,rft⟩ (env.opens l.name) inTypeName).toLogger =
      match addTarget env inTypeName l.toLogger with
      | .ok lg => lg
      | .error _ => l.toLogger := by
  have hany : ∀ full, l.toLogger.hasAppender full = l.targets.any (·.name = full) := by
    intro full
    unfold Logger.hasAppender TargetLogger.toLogger
    rw [List.any_map]
    rfl
  have hname : l.toLogger.name = l.name := rfl
  have hnew : ∀ full kind size, ({ l with targets := l.targets ++ [⟨full,kind,size⟩] } : TargetLogger).toLogger =
      l.toLogger.addAppender full := by
    intro full kind size
    unfold TargetLogger.toLogger Logger.addAppender
    dsimp only
    rw [List.map_append]
    rfl
  unfold TargetLogger.add addTarget attach
  dsimp only
  cases targetType (getTargetTypeAndName (lowerName inTypeName)).1 with
  | none => rfl
  | some kind =>
    generalize (getTargetTypeAndName (lowerName inTypeName)).2 = name
    generalize (getTargetTypeAndName (lowerName inTypeName)).1 = type
    cases kind with
    | console =>
      simp only [reduceCtorEq,false_and,if_false,true_or,if_true,hany]
      split
      · rfl
      · exact hnew ..
    | file =>
      simp only [reduceCtorEq,false_and,if_false,false_or,hany,hname]
      split
      · rfl
      · split
        · exact hnew ..
        · rfl
    | device =>
      simp only [reduceCtorEq,true_and,false_or,hany,hname]
      split
      · rfl
      · split
        · rfl
        · split
          · exact hnew ..
          · rfl

/-- And for the command that removes. -/
theorem remove_toLogger (env : Env) (rft : Nat) (typeName : String) :
    match (removeCommand env).action typeName with
    | .ok act => act l.toLogger = .ok (l.remove ⟨env.logPath,rft⟩ typeName).toLogger
    | .error _ => l.remove ⟨env.logPath,rft⟩ typeName = l := by
  unfold removeCommand TargetLogger.remove
  dsimp only
  cases targetType (getTargetTypeAndName (lowerName typeName)).1 with
  | none => rfl
  | some kind =>
    have hkept : ∀ p : List Char → Bool,
        (l.targets.filter (fun t => p t.name)).map (fun t => (⟨t.name,true⟩ : Appender)) =
          l.toLogger.appenders.filter (fun a => p a.name) := by
      intro p
      unfold TargetLogger.toLogger
      rw [List.filter_map]
      rfl
    unfold removeTarget Logger.removeAppender
    dsimp only
    generalize (if kind = .console then defaultConsoleName
      else (getTargetTypeAndName (lowerName typeName)).2) = name
    by_cases hall : name = ['*']
    · rw [if_pos hall,if_pos hall]
      exact congrArg Except.ok (congrArg (Logger.mk l.name l.level)
        (hkept (fun n => (Lib.find ((getTargetTypeAndName (lowerName typeName)).1 ++ sep) n).isNone)).symm)
    · rw [if_neg hall,if_neg hall]
      exact congrArg Except.ok (congrArg (Logger.mk l.name l.level)
        (hkept (fun n => n ≠ appenderName env.logPath l.toLogger _ name kind)).symm)

end Requests

section Meaning

def typeText : TargetType → List Char
  | .console => "console".toList
  | .file => "file".toList
  | .device => "device".toList

/-- A target as it was asked for: a console, a file with its path, or a device with its name. -/
structure Wanted where
  kind : TargetType
  subject : List Char
  maximumFileSize : Option Nat
deriving DecidableEq, Repr

def Wanted.text (w : Wanted) : List Char := typeText w.kind ++ sep ++ w.subject

/-- One target, whatever its size. -/
def Wanted.same (v w : Wanted) : Bool := v.kind = w.kind && v.subject = w.subject

def Wanted.target (w : Wanted) : Target := ⟨w.text,w.kind,w.maximumFileSize⟩

/-- A file target with a new size; another target has none. -/
def Wanted.sized (w : Wanted) (size : Nat) : Wanted :=
  if w.kind = .file then { w with maximumFileSize := some size } else w

def subject (logPath : List Char) (devName : String) (name : List Char) : TargetType → List Char
  | .console => defaultConsoleName
  | .file => fullFileName logPath ⟨devName,.off,[]⟩ name
  | .device => name

variable (g : Settings) (devName : String) (ws : List Wanted)

/-- A target comes to those of a device when it is not there and can be opened. -/
def wantAdd (opens : List Char → Bool) (inTypeName : String) : List Wanted :=
  let (type,name) := getTargetTypeAndName (lowerName inTypeName)
  match targetType type with
  | none => ws
  | some kind =>
    if kind = .device ∧ name = defaultTargetName then ws
    else
      let w : Wanted := ⟨kind,subject g.logPath devName name kind,newSize g kind⟩
      if ws.any (·.same w) then ws
      else if kind = .console ∨ opens w.text = true then ws ++ [w]
      else ws

/-- All targets of a type go, or one. -/
def wantRemove (typeName : String) : List Wanted :=
  let (type,name) := getTargetTypeAndName (lowerName typeName)
  match targetType type with
  | none => ws
  | some kind =>
    if name = ['*'] then ws.filter (fun w => w.kind ≠ kind)
    else ws.filter (fun v => !v.same ⟨kind,subject g.logPath devName name kind,none⟩)

def wantThreshold (rtf : Nat) : List Wanted := ws.map (·.sized (clamped rtf * 1024))

end Meaning

/-- The loggers of all devices, and the targets that were added to them and not removed since. -/
structure TargetLog where
  logger : Nat → TargetLogger
  wanted : Nat → List Wanted

/-- A request, with which targets can be opened then; targets are removed from the devices that a pattern means. -/
inductive TargetAct
  | add (d : Nat) (inTypeName : String) (opens : List Char → Bool)
  | remove (dl : List Nat) (typeName : String)
  | setRollingFileThreshold (d : Nat) (rtf : Nat)

section Runs
variable (g : Settings)

def TargetLog.start (name : Nat → String) (level : Nat → Level) : TargetLog :=
  ⟨fun d => ⟨name d,level d,[]⟩,fun _ => []⟩

/-- Every device that is meant is treated, and its targets are accounted for. -/
def TargetLog.each (h : TargetLog) (p : Nat → Prop) [DecidablePred p] (f : TargetLogger → TargetLogger)
    (want : String → List Wanted → List Wanted) : TargetLog :=
  ⟨fun d => if p d then f (h.logger d) else h.logger d,
    fun d => if p d then want (h.logger d).name (h.wanted d) else h.wanted d⟩

def targetStep (h : TargetLog) : TargetAct → TargetLog
  | .add d inTypeName opens =>
    h.each (· = d) (fun l => l.add g opens inTypeName) (fun n ws => wantAdd g n ws opens inTypeName)
  | .remove dl typeName => h.each (· ∈ dl) (fun l => l.remove g typeName) (fun n ws => wantRemove g n ws typeName)
  | .setRollingFileThreshold d rtf =>
    h.each (· = d) (fun l => l.setRollingFileThreshold rtf) (fun _ ws => wantThreshold ws rtf)

/-- The names of other targets of the device do not have the text of the type in them. -/
def OnlyOfType (type : List Char) (kind : TargetType) (l : TargetLogger) : Prop :=
  ∀ t ∈ l.targets, (type ++ sep) <:+: t.name → t.kind = kind

/-- All targets of a type are removed, or a threshold is set, where the names of the targets tell the types apart. -/
def TypesTold (h : TargetLog) : TargetAct → Prop
  | .add _ _ _ => True
  | .remove dl typeName =>
    let (type,name) := getTargetTypeAndName (lowerName typeName)
    name = ['*'] → ∀ kind, targetType type = some kind → kind ≠ .console → ∀ d ∈ dl, OnlyOfType type kind (h.logger d)
  | .setRollingFileThreshold d _ => OnlyOfType "file".toList .file (h.logger d)

/-- A device has the targets that were added and not removed, each one once, and each with its own size. -/
def AsAsked (h : TargetLog) : Prop :=
  ∀ d, (∀ t, t ∈ (h.logger d).targets ↔ ∃ w ∈ h.wanted d, t = w.target) ∧
    ((h.logger d).targets.map (·.name)).Nodup

end Runs

section Texts
variable {type name : List Char} {kind : TargetType}

theorem type_eq (h : targetType type = some kind) : type = typeText kind := by
  unfold targetType at h
  split at h
  · rename_i ht
    cases h
    exact ht
  · split at h
    · rename_i ht
      cases h
      exact ht
    · split at h
      · rename_i ht
        cases h
        exact ht
      · cases h

theorem appenderName_eq (h : targetType type = some kind) (logPath : List Char) (lg : Logger) (size : Option Nat) :
    appenderName logPath lg type name kind = (Wanted.mk kind (subject logPath lg.name name kind) size).text := by
  rw [type_eq h]
  cases kind <;> rfl

/-- Two targets with one name are of one type and about one thing. -/
theorem text_inj {w v : Wanted} (h : w.text = v.text) : w.kind = v.kind ∧ w.subject = v.subject := by
  obtain ⟨k,s,m⟩ := w
  obtain ⟨k',s',m'⟩ := v
  unfold Wanted.text at h
  dsimp only at h ⊢
  cases k <;> cases k' <;> first | exact ⟨rfl,List.append_cancel_left h⟩ | exact absurd h (by simp [typeText])

theorem same_iff {w v : Wanted} : v.same w = true ↔ v.text = w.text := by
  unfold Wanted.same
  rw [Bool.and_eq_true,decide_eq_true_iff,decide_eq_true_iff]
  refine ⟨fun ⟨hk,hs⟩ => ?_,text_inj⟩
  unfold Wanted.text
  rw [hk,hs]

theorem prefix_of_kind (w : Wanted) : typeText w.kind ++ sep <:+: w.text := by
  unfold Wanted.text
  exact (List.prefix_append _ _).isInfix

@[simp] theorem Wanted.sized_kind (w : Wanted) (size : Nat) : (w.sized size).kind = w.kind := by
  unfold Wanted.sized
  split <;> rfl

@[simp] theorem Wanted.sized_subject (w : Wanted) (size : Nat) : (w.sized size).subject = w.subject := by
  unfold Wanted.sized
  split <;> rfl

@[simp] theorem Wanted.sized_text (w : Wanted) (size : Nat) : (w.sized size).text = w.text := by
  unfold Wanted.text
  rw [Wanted.sized_kind,Wanted.sized_subject]

theorem Wanted.sized_other {w : Wanted} (h : w.kind ≠ .file) (size : Nat) : w.sized size = w := if_neg h

end Texts

/-- The targets of a logger against what was asked for. -/
structure Matches (l : TargetLogger) (ws : List Wanted) : Prop where
  same : l.targets = ws.map Wanted.target
  once : (ws.map Wanted.text).Nodup
  console : ∀ w ∈ ws, w.kind = .console → w.subject = defaultConsoleName
  sizes : ∀ w ∈ ws, w.kind ≠ .file → w.maximumFileSize = none

namespace Matches
variable {l : TargetLogger} {ws : List Wanted} {g : Settings}

theorem names (h : Matches l ws) : l.targets.map (·.name) = ws.map Wanted.text := by
  rw [h.same,List.map_map]
  rfl

theorem asAsked (h : Matches l ws) :
    (∀ t, t ∈ l.targets ↔ ∃ w ∈ ws, t = w.target) ∧ (l.targets.map (·.name)).Nodup := by
  refine ⟨fun t => ?_,?_⟩
  · rw [h.same,List.mem_map]
    exact ⟨fun ⟨w,hw,ht⟩ => ⟨w,hw,ht.symm⟩,fun ⟨w,hw,ht⟩ => ⟨w,hw,ht.symm⟩⟩
  · rw [h.names]
    exact h.once

theorem any_iff (h : Matches l ws) (w : Wanted) : l.targets.any (·.name = w.text) = ws.any (·.same w) := by
  rw [h.same,List.any_map]
  congr 1
  funext v
  rw [Bool.eq_iff_iff,same_iff]
  exact decide_eq_true_iff

/-- A new target is not there yet under its name. -/
theorem append (h : Matches l ws) {w : Wanted} (hnew : ws.any (·.same w) = false)
    (hc : w.kind = .console → w.subject = defaultConsoleName) (hs : w.kind ≠ .file → w.maximumFileSize = none) :
    Matches { l with targets := l.targets ++ [w.target] } (ws ++ [w]) where
  same := by
    dsimp only
    rw [h.same,List.map_append]
    rfl
  once := by
    rw [List.map_append,List.map_cons,List.map_nil,List.nodup_append]
    refine ⟨h.once,List.nodup_singleton _,?_⟩
    intro a ha b hb hab
    rw [List.mem_singleton.mp hb] at hab
    obtain ⟨v,hv,hva⟩ := List.mem_map.mp ha
    exact List.any_eq_false.mp hnew v hv (same_iff.mpr (hva.trans hab))
  console v hv := by
    rcases List.mem_append.mp hv with hm | hm
    · exact h.console v hm
    · rw [List.mem_singleton.mp hm]
      exact hc
  sizes v hv := by
    rcases List.mem_append.mp hv with hm | hm
    · exact h.sizes v hm
    · rw [List.mem_singleton.mp hm]
      exact hs

theorem add (h : Matches l ws) (opens : List Char → Bool) (inTypeName : String) :
    Matches (l.add g opens inTypeName) (wantAdd g l.name ws opens inTypeName) := by
  unfold TargetLogger.add wantAdd
  dsimp only
  cases hk : targetType (getTargetTypeAndName (lowerName inTypeName)).1 with
  | none => exact h
  | some kind =>
    dsimp only
    have hname : l.toLogger.name = l.name := rfl
    rw [appenderName_eq hk g.logPath l.toLogger (newSize g kind),hname]
    generalize (getTargetTypeAndName (lowerName inTypeName)).2 = name
    split
    · exact h
    · rw [h.any_iff]
      cases hany : ws.any (·.same ⟨kind,subject g.logPath l.name name kind,newSize g kind⟩) with
      | true =>
        rw [if_pos rfl,if_pos rfl]
        exact h
      | false =>
        rw [if_neg Bool.false_ne_true,if_neg Bool.false_ne_true]
        split
        · refine h.append hany ?_ ?_
          · rintro rfl
            rfl
          · exact fun hf => if_neg hf
        · exact h

/-- Targets go on both sides by tests that agree. -/
theorem filter (h : Matches l ws) {p : Target → Bool} {q : Wanted → Bool} (hpq : ∀ w ∈ ws, p w.target = q w) :
    Matches { l with targets := l.targets.filter p } (ws.filter q) where
  same := by
    dsimp only
    rw [h.same,List.filter_map]
    congr 1
    exact List.filter_congr hpq
  once := (List.filter_sublist.map Wanted.text).nodup h.once
  console w hw := h.console w (List.mem_of_mem_filter hw)
  sizes w hw := h.sizes w (List.mem_of_mem_filter hw)

theorem removeOne (h : Matches l ws) (w : Wanted) :
    Matches { l with targets := l.targets.filter (fun t => t.name ≠ w.text) } (ws.filter (fun v => !v.same w)) := by
  refine h.filter fun v _ => ?_
  rw [Bool.eq_iff_iff,Bool.not_eq_true',← Bool.not_eq_true,same_iff]
  exact decide_eq_true_iff

/-- The text of the type is in the names of all targets of the type, and of no others where the types are told. -/
theorem removeAll (h : Matches l ws) {type : List Char} {kind : TargetType} (hk : targetType type = some kind)
    (ht : OnlyOfType type kind l) :
    Matches { l with targets := l.targets.filter (fun t => (Lib.find (type ++ sep) t.name).isNone) }
      (ws.filter (fun w => w.kind ≠ kind)) := by
  refine h.filter fun w hw => ?_
  have hfound : type ++ sep <:+: w.text ↔ w.kind = kind := by
    constructor
    · refine ht w.target ?_
      rw [h.same]
      exact List.mem_map_of_mem hw
    · rintro rfl
      rw [type_eq hk]
      exact prefix_of_kind w
  rw [Bool.eq_iff_iff,Option.isNone_iff_eq_none,decide_eq_true_iff]
  exact find_eq_none.trans (not_congr hfound)

/-- There is one console. -/
theorem consoles (h : Matches l ws) :
    ws.filter (fun w => w.kind ≠ .console) = ws.filter (fun v => !v.same ⟨.console,defaultConsoleName,none⟩) := by
  refine List.filter_congr fun w hw => ?_
  unfold Wanted.same
  by_cases hc : w.kind = .console
  · simp [hc,h.console w hw hc]
  · simp [hc]

theorem remove (h : Matches l ws) (typeName : String)
    (ht : ∀ kind, targetType (getTargetTypeAndName (lowerName typeName)).1 = some kind → kind ≠ .console →
      (getTargetTypeAndName (lowerName typeName)).2 = ['*'] →
      OnlyOfType (getTargetTypeAndName (lowerName typeName)).1 kind l) :
    Matches (l.remove g typeName) (wantRemove g l.name ws typeName) := by
  unfold TargetLogger.remove wantRemove
  dsimp only
  cases hk : targetType (getTargetTypeAndName (lowerName typeName)).1 with
  | none => exact h
  | some kind =>
    have hname : l.toLogger.name = l.name := rfl
    dsimp only
    rw [appenderName_eq hk g.logPath l.toLogger none,hname]
    by_cases hc : kind = .console
    · subst hc
      rw [if_pos rfl,if_neg (by decide)]
      split
      · rw [h.consoles]
        exact h.removeOne _
      · exact h.removeOne _
    · rw [if_neg hc]
      split
      · rename_i hall
        exact h.removeAll hk (ht kind hk hc hall)
      · exact h.removeOne _

theorem setThreshold (h : Matches l ws) (rtf : Nat) (ht : OnlyOfType "file".toList .file l) :
    Matches (l.setRollingFileThreshold rtf) (wantThreshold ws rtf) where
  same := by
    unfold TargetLogger.setRollingFileThreshold wantThreshold
    dsimp only
    rw [h.same,List.map_map,List.map_map]
    refine List.map_congr_left fun w hw => ?_
    have hfound : "file".toList ++ sep <:+: w.target.name ↔ w.kind = .file := by
      constructor
      · refine ht w.target ?_
        rw [h.same]
        exact List.mem_map_of_mem hw
      · intro hf
        have hp := prefix_of_kind w
        rwa [hf] at hp
    dsimp only [Function.comp_apply]
    unfold Wanted.sized
    by_cases hf : w.kind = .file
    · rw [if_pos (find_isSome.mpr (hfound.mpr hf)),if_pos hf]
      rfl
    · rw [if_neg (fun hs => hf (hfound.mp (find_isSome.mp hs))),if_neg hf]
  once := by
    unfold wantThreshold
    rw [List.map_map]
    have hcomp : Wanted.text ∘ (fun w : Wanted => w.sized (clamped rtf * 1024)) = Wanted.text :=
      funext fun w => w.sized_text _
    rw [hcomp]
    exact h.once
  console v hv hc := by
    obtain ⟨w,hw,rfl⟩ := List.mem_map.mp hv
    rw [Wanted.sized_kind] at hc
    rw [Wanted.sized_subject]
    exact h.console w hw hc
  sizes v hv hc := by
    obtain ⟨w,hw,rfl⟩ := List.mem_map.mp hv
    rw [Wanted.sized_kind] at hc
    rw [Wanted.sized_other hc]
    exact h.sizes w hw hc

end Matches

section Reached
variable {g : Settings} {h : TargetLog}

def AllMatch (h : TargetLog) : Prop := ∀ d, Matches (h.logger d) (h.wanted d)

theorem start_match (name : Nat → String) (level : Nat → Level) : AllMatch (TargetLog.start name level) := fun _ =>
  ⟨rfl,List.nodup_nil,fun _ hw => absurd hw List.not_mem_nil,fun _ hw => absurd hw List.not_mem_nil⟩

theorem AllMatch.asAsked (hm : AllMatch h) : AsAsked h := fun d => (hm d).asAsked

theorem AllMatch.each (hm : AllMatch h) {p : Nat → Prop} [DecidablePred p] (f : TargetLogger → TargetLogger)
    (want : String → List Wanted → List Wanted)
    (hf : ∀ d, p d → Matches (f (h.logger d)) (want (h.logger d).name (h.wanted d))) : AllMatch (h.each p f want) := by
  intro d
  unfold TargetLog.each
  dsimp only
  split
  · rename_i hd
    exact hf d hd
  · exact hm d

theorem AllMatch.step (hm : AllMatch h) {a : TargetAct} (hc : TypesTold h a) : AllMatch (targetStep g h a) := by
  cases a with
  | add d inTypeName opens =>
    exact hm.each (fun l => l.add g opens inTypeName) (fun n ws => wantAdd g n ws opens inTypeName) fun e _ =>
      (hm e).add opens inTypeName
  | remove dl typeName =>
    exact hm.each (fun l => l.remove g typeName) (fun n ws => wantRemove g n ws typeName) fun e he =>
      (hm e).remove typeName (fun kind hk hne hall => hc hall kind hk hne e he)
  | setRollingFileThreshold d rtf =>
    refine hm.each (fun l => l.setRollingFileThreshold rtf) (fun _ ws => wantThreshold ws rtf) fun e he =>
      (hm e).setThreshold rtf ?_
    rw [he]
    exact hc

/-- A target of another type that has the text of the type in its name. -/
theorem not_told {type : List Char} {kind : TargetType} {l : TargetLogger} (h : ¬ OnlyOfType type kind l) :
    ∃ t ∈ l.targets, type ++ sep <:+: t.name ∧ t.kind ≠ kind := by
  unfold OnlyOfType at h
  push Not at h
  exact h

/-- It is removed with the targets of the type. -/
theorem AllMatch.removed (hm : AllMatch h) {dl : List Nat} {typeName : String}
    (hc : ¬ TypesTold h (.remove dl typeName)) : ¬ AsAsked (targetStep g h (.remove dl typeName)) := by
  unfold TypesTold at hc
  push Not at hc
  obtain ⟨hall,kind,hk,hne,d,hd,htold⟩ := hc
  obtain ⟨t,ht,hfound,hkind⟩ := not_told htold
  obtain ⟨w,hw,rfl⟩ := ((hm d).asAsked.1 t).mp ht
  intro hasked
  have hmem := ((hasked d).1 w.target).mpr ⟨w,?_,rfl⟩
  · simp only [targetStep,TargetLog.each,if_pos hd,TargetLogger.remove,hk,if_neg hne,if_pos hall,
      List.mem_filter,Option.isNone_iff_eq_none] at hmem
    exact find_eq_none.mp hmem.2 hfound
  · simp only [targetStep,TargetLog.each,if_pos hd,wantRemove,hk,if_pos hall,List.mem_filter,decide_eq_true_eq]
    exact ⟨hw,hkind⟩

/-- The size of a file is written into it. -/
theorem AllMatch.written (hm : AllMatch h) {d rtf : Nat}
    (hc : ¬ TypesTold h (.setRollingFileThreshold d rtf)) :
    ¬ AsAsked (targetStep g h (.setRollingFileThreshold d rtf)) := by
  obtain ⟨t,ht,hfound,hkind⟩ := not_told hc
  intro hasked
  have hnew : { t with maximumFileSize := some (clamped rtf * 1024) } ∈
      ((targetStep g h (.setRollingFileThreshold d rtf)).logger d).targets := by
    simp only [targetStep,TargetLog.each,if_true,TargetLogger.setRollingFileThreshold,List.mem_map]
    exact ⟨t,ht,if_pos (find_isSome.mpr hfound)⟩
  obtain ⟨v,hv,hvt⟩ := ((hasked d).1 _).mp hnew
  simp only [targetStep,TargetLog.each,if_true,wantThreshold,List.mem_map] at hv
  obtain ⟨w,hw,rfl⟩ := hv
  have hwk : w.kind ≠ .file := by
    rw [← w.sized_kind (clamped rtf * 1024)]
    exact (congrArg Target.kind hvt).symm.trans_ne hkind
  rw [Wanted.sized_other hwk] at hvt
  have hsize := congrArg Target.maximumFileSize hvt
  cases hsize.trans ((hm d).sizes w hw hwk)

theorem AllMatch.broken (hm : AllMatch h) {a : TargetAct} (hc : ¬ TypesTold h a) : ¬ AsAsked (targetStep g h a) := by
  cases a with
  | add d inTypeName opens => exact absurd trivial hc
  | remove dl typeName => exact hm.removed hc
  | setRollingFileThreshold d rtf => exact hm.written hc

end Reached

/-- Every device has the targets that were asked for, in all states of a run, exactly when the types are told by the
names wherever they matter. -/
theorem targets_asked_iff (g : Settings) (name : Nat → String) (level : Nat → Level) (acts : List TargetAct) :
    (∀ l, l <+: acts → AsAsked (l.foldl (targetStep g) (TargetLog.start name level))) ↔
      Along (targetStep g) TypesTold (TargetLog.start name level) acts :=
  along_exact (fun _ _ => True) (fun _ hm => hm.asAsked) (fun _ _ hm _ hc => hm.step hc)
    (fun _ _ hm _ hc => hm.broken hc) (start_match name level) (along_of_all (fun _ _ => trivial) _ _)

/-- A file target with the text of a device target in its path. -/
def fileRequests : List TargetAct :=
  [.add 0 "file::/tmp/device::x" (fun _ => true),.remove [0] "device::*"]

/-- It goes with all device targets. -/
theorem file_goes_with_devices :
    ¬ ∀ l, l <+: fileRequests →
      AsAsked (l.foldl (targetStep ⟨[],500⟩) (TargetLog.start (fun _ => "a/b/c") (fun _ => .off))) := by
  intro hall
  have hmem := ((hall _ (List.prefix_refl _) 0).1 ⟨"file::/tmp/device::x".toList,.file,some 512000⟩).mpr
    ⟨⟨.file,"/tmp/device::x".toList,some 512000⟩,by decide,rfl⟩
  exact absurd hmem (by decide)

end CppTango.Device.Logging
