import CppTango.Lib.Memory
import CppTango.Polling.Properties

namespace CppTango.Polling.Properties

open CppTango.Lib CppTango.Polling.PoolConf

/-- The names of what a device has. -/
structure Device where
  commands : List Text
  attributes : List Text

def known (objs : List Text) (name : Text) : Bool := (objs.map lower).contains (lower name)

/-- Erase the pairs whose name is not known; `note` is what each of them does to the code returned. -/
def checkList (objs : List Text) (note : Int → Int) (ret : Int) : List Text → Int × List Text
  | [] => (ret,[])
  | [a] => (ret,[a])
  | name::upd::rest =>
    if known objs name then
      let r := checkList objs note ret rest
      (r.1,name :: upd :: r.2)
    else checkList objs note (note ret) rest

def noteCmd (_ : Int) : Int := -1

def noteAttr (ret : Int) : Int := if ret = -1 then -3 else -2

def checkDevPoll (dev : Device) (s : State) : Int × State :=
  let cmds := checkList dev.commands noteCmd 0 (s.mem .polledCmd)
  let attrs := checkList dev.attributes noteAttr cmds.1 (s.mem .polledAttr)
  (attrs.1,setList (setList s .polledCmd cmds.2) .polledAttr attrs.2)

/-- The properties to delete and those to put, with their values. -/
structure PropUpdate where
  delProp : List PropName
  updProp : List (PropName × List Text)
deriving DecidableEq, Repr

def insertFirst (values : List Text) : List (PropName × List Text) → List (PropName × List Text)
  | [] => []
  | datum :: data => (datum.1,values) :: data

/-- The values go in the first element of the vector, whichever was added. -/
def addUpdate (name : PropName) (list : List Text) (u : PropUpdate) : PropUpdate :=
  if list = [] then { u with delProp := u.delProp ++ [name] }
  else { u with updProp := insertFirst list (u.updProp ++ [(name,[])]) }

def propUpdate (modProp : Int) (s : State) : PropUpdate :=
  let u : PropUpdate := ⟨[],[]⟩
  let u := if modProp = -1 ∨ modProp = -3 then addUpdate .polledCmd (s.mem .polledCmd) u else u
  if modProp = -2 ∨ modProp = -3 then addUpdate .polledAttr (s.mem .polledAttr) u else u

/-- How a call of the database ends. After a `CommunicationFailed` it may have been done. -/
inductive Answer
  | done | communicationFailed (applied : Bool) | devFailed
deriving DecidableEq, Repr

def deleteDeviceProperty (names : List PropName) (s : State) : State := names.foldl deleteProperty s

def putDeviceProperty (d : Database) (data : List (PropName × List Text)) (s : State) : State :=
  data.foldl (fun s datum => putProperty d s datum.1 datum.2) s

def request (run : State → State) (s : State) : Answer → State
  | .communicationFailed false | .devFailed => s
  | .done | .communicationFailed true => run s

/-- Try until both calls are done; `retries` is what is left of them. -/
def updateDb (d : Database) (starting : Bool) (u : PropUpdate) :
    Nat → List (Answer × Answer) → State → Option State
  | 0,_,_ => none
  | _,[],_ => none
  | retries+1,(del,upd) :: answers,s =>
    let again := fun s => if starting = true ∧ retries ≠ 0 then updateDb d starting u retries answers s else none
    let del := if u.delProp = [] then .done else del
    let upd := if u.updProp = [] then .done else upd
    let s₁ := request (deleteDeviceProperty u.delProp) s del
    let s₂ := request (putDeviceProperty d u.updProp) s₁ upd
    match del,upd with
    | .devFailed,_ => none
    | .communicationFailed _,_ => again s₁
    | .done,.devFailed => none
    | .done,.communicationFailed _ => again s₂
    | .done,.done => some s₂

def dbStartPhaseRetries : Nat := 3

/-- The part of `upd_polling_prop` for one device. `none` stands for an exception. -/
def updPollingProp (d : Database) (starting : Bool) (answers : List (Answer × Answer)) (modProp : Int)
    (s : State) : Option State :=
  updateDb d starting (propUpdate modProp s) dbStartPhaseRetries answers s

section Lists
variable {objs : List Text} {note : Int → Int} {ret : Int} {l : List Text}

def pairs : List Text → List (Text × Text)
  | [] => []
  | [_] => []
  | name::upd::rest => (name,upd) :: pairs rest

def keptPairs (objs l : List Text) : List (Text × Text) := (pairs l).filter (fun e => known objs e.1)

/-- How many pairs of the list have a name that is not known. -/
def nbMissing (objs l : List Text) : Nat := (pairs l).countP (fun e => !known objs e.1)

theorem keptPairs_cons (name upd : Text) (rest : List Text) :
    keptPairs objs (name :: upd :: rest) =
      if known objs name = true then (name,upd) :: keptPairs objs rest else keptPairs objs rest := by
  simp only [keptPairs,pairs,List.filter_cons]

theorem nbMissing_cons (name upd : Text) (rest : List Text) :
    nbMissing objs (name :: upd :: rest) =
      if known objs name = true then nbMissing objs rest else nbMissing objs rest + 1 := by
  cases hk : known objs name <;> simp [nbMissing,pairs,hk]

theorem checkList_spec (objs : List Text) (note : Int → Int) (ret : Int) (h : l.length % 2 = 0) :
    (checkList objs note ret l).2.length % 2 = 0 ∧
      pairs (checkList objs note ret l).2 = keptPairs objs l ∧
      (checkList objs note ret l).1 = note^[nbMissing objs l] ret := by
  induction l using pairs.induct generalizing ret with
  | case1 => exact ⟨rfl,rfl,rfl⟩
  | case2 => cases h
  | case3 name upd rest ih =>
    rw [checkList,keptPairs_cons,nbMissing_cons]
    by_cases hk : known objs name = true
    · obtain ⟨he,hp,hr⟩ := ih ret (even_tail h)
      rw [if_pos hk,if_pos hk,if_pos hk]
      refine ⟨?_,?_,hr⟩
      · simp only [List.length_cons]
        omega
      · rw [pairs,hp]
    · rw [if_neg hk,if_neg hk,if_neg hk,Function.iterate_succ_apply]
      exact ih (note ret) (even_tail h)

theorem checkList_untouched (h : nbMissing objs l = 0) : (checkList objs note ret l).2 = l := by
  induction l using pairs.induct with
  | case1 => rfl
  | case2 => rfl
  | case3 name upd rest ih =>
    rw [nbMissing_cons] at h
    split at h
    next hk =>
      rw [checkList,if_pos hk]
      exact congrArg (fun l => name :: upd :: l) (ih h)
    next => cases h

theorem pairs_nil (h : l.length % 2 = 0) : pairs l = [] ↔ l = [] := by
  match l with
  | [] => exact iff_of_true rfl rfl
  | [_] => cases h
  | _::_::_ => exact iff_of_false (List.cons_ne_nil _ _) (List.cons_ne_nil _ _)

theorem noteCmd_iterate (n : Nat) : noteCmd^[n] 0 = if n = 0 then 0 else -1 := by
  cases n with
  | zero => rfl
  | succ n => rw [Function.iterate_succ_apply']; rfl

/-- From the second attribute erased on the code is -2, whatever it was. -/
theorem noteAttr_iterate (ret : Int) (n : Nat) : noteAttr^[n + 2] ret = -2 := by
  induction n with
  | zero =>
    show noteAttr (noteAttr ret) = -2
    unfold noteAttr
    split <;> rfl
  | succ n ih =>
    rw [Function.iterate_succ_apply',ih]
    rfl

/-- The code for what was modified. -/
def modified (cmds attrs : Bool) : Int :=
  match cmds,attrs with
  | false,false => 0
  | true,false => -1
  | false,true => -2
  | true,true => -3

/-- The code is right but for several attributes erased after a command. -/
theorem ret_eq_modified (c a : Nat) :
    noteAttr^[a] (noteCmd^[c] 0) = modified (c ≠ 0) (a ≠ 0) ↔ c = 0 ∨ a ≤ 1 := by
  rw [noteCmd_iterate]
  rcases Nat.eq_zero_or_pos c with rfl | hc
  · refine iff_of_true ?_ (.inl rfl)
    match a with
    | 0 | 1 => rfl
    | a+2 => rw [noteAttr_iterate]; rfl
  · have hne : c ≠ 0 := by omega
    rw [if_neg hne]
    match a with
    | 0 | 1 => exact iff_of_true (by simp [hne,noteAttr,modified]) (.inr (by omega))
    | a+2 => exact iff_of_false (by simp [hne,noteAttr_iterate,modified]) (by omega)

end Lists

section Database
variable (d : Database) (u : PropUpdate) {s s' : State}

def deletions : List (PropName × Option (List Text)) := u.delProp.map (fun name => (name,none))

def puts : List (PropName × Option (List Text)) :=
  u.updProp.map (fun e => (e.1,if e.2 = [] ∧ d.keepsEmpty = false then none else some (e.2.map cStr)))

def changes : List (PropName × Option (List Text)) := deletions u ++ puts d u

/-- The state after changes of the database. -/
def changed (s : State) (ws : List (PropName × Option (List Text))) : State :=
  { s with db := writeAll ws s.db }

theorem deleteDeviceProperty_eq (s : State) : deleteDeviceProperty u.delProp s = changed s (deletions u) := by
  unfold deleteDeviceProperty deletions
  induction u.delProp generalizing s with
  | nil => rfl
  | cons name names ih => exact ih _

theorem putDeviceProperty_eq (s : State) : putDeviceProperty d u.updProp s = changed s (puts d u) := by
  unfold putDeviceProperty puts
  induction u.updProp generalizing s with
  | nil => rfl
  | cons datum data ih => exact ih _

theorem request_eq (run : State → State) (s : State) (a : Answer) :
    request run s a = s ∨ request run s a = run s := by
  cases a with
  | done => exact .inr rfl
  | devFailed => exact .inl rfl
  | communicationFailed applied =>
    cases applied with
    | false => exact .inl rfl
    | true => exact .inr rfl

/-- Whatever an attempt did before it failed, the next one writes the same. -/
theorem changed_again {s₁ : State} (h : s₁ = s ∨ s₁ = changed s (deletions u) ∨ s₁ = changed s (changes d u)) :
    changed s₁ (changes d u) = changed s (changes d u) := by
  rcases h with rfl | rfl | rfl
  · rfl
  · simp only [changed,changes,writeAll_again]
  · simp only [changed,writeAll_twice]

theorem updateDb_changed (starting : Bool) (retries : Nat) (answers : List (Answer × Answer))
    (h : updateDb d starting u retries answers s = some s') : s' = changed s (changes d u) := by
  induction retries generalizing s answers with
  | zero => cases h
  | succ retries ih =>
    cases answers with
    | nil => cases h
    | cons answer answers =>
      rw [updateDb] at h
      dsimp only at h
      generalize hdel : (if u.delProp = [] then Answer.done else answer.1) = del at h
      generalize hupd : (if u.updProp = [] then Answer.done else answer.2) = upd at h
      have hdone : request (deleteDeviceProperty u.delProp) s .done = deleteDeviceProperty u.delProp s := rfl
      have hput : putDeviceProperty d u.updProp (deleteDeviceProperty u.delProp s) = changed s (changes d u) := by
        rw [deleteDeviceProperty_eq,putDeviceProperty_eq,changed,changed,changed,changes,writeAll_append]
      cases del with
      | devFailed => cases h
      | communicationFailed applied =>
        have hs₁ := request_eq (deleteDeviceProperty u.delProp) s (.communicationFailed applied)
        rw [deleteDeviceProperty_eq] at hs₁
        dsimp only at h
        split at h
        next => rw [ih _ h,changed_again d u (hs₁.imp id .inl)]
        next => cases h
      | done =>
        cases upd with
        | devFailed => cases h
        | communicationFailed applied =>
          have hs₂ := request_eq (putDeviceProperty d u.updProp) (deleteDeviceProperty u.delProp s)
            (.communicationFailed applied)
          rw [hput,deleteDeviceProperty_eq] at hs₂
          rw [hdone,deleteDeviceProperty_eq] at h
          dsimp only at h
          split at h
          next => rw [ih _ h,changed_again d u (.inr hs₂)]
          next => cases h
        | done =>
          injection h with h
          rw [← h]
          exact hput

end Database

section Update
variable (d : Database) {s : State} {cmds attrs : List Text}

/-- What the database has for a list: no property for an empty one. -/
def storedAs (list : List Text) : Option (List Text) := if list = [] then none else some (list.map cStr)

/-- The properties of the polled lists are these lists. -/
def PolledStored (s : State) : Prop := ∀ type, s.db (polledList type) = storedAs (s.mem (polledList type))

theorem changes_one (p : PropName) (list : List Text) :
    changes d (addUpdate p list ⟨[],[]⟩) = [(p,storedAs list)] := by
  unfold addUpdate storedAs
  split
  next => rfl
  next h => simp [changes,deletions,puts,insertFirst,h]

/-- Two lists to put: the second one goes to the first property, and the second property has no
values. -/
theorem changes_both (hc : cmds ≠ []) (ha : attrs ≠ []) :
    changes d (addUpdate .polledAttr attrs (addUpdate .polledCmd cmds ⟨[],[]⟩)) =
      [(.polledCmd,storedAs attrs),(.polledAttr,if d.keepsEmpty = false then none else some [])] := by
  simp [changes,deletions,puts,addUpdate,insertFirst,storedAs,hc,ha]

theorem polledStored_both (s : State) :
    PolledStored (changed s (changes d (addUpdate .polledAttr (s.mem .polledAttr)
      (addUpdate .polledCmd (s.mem .polledCmd) ⟨[],[]⟩)))) ↔
      s.mem .polledCmd = [] ∨ s.mem .polledAttr = [] := by
  by_cases hc : s.mem .polledCmd = []
  · refine iff_of_true (fun type => ?_) (.inl hc)
    by_cases ha : s.mem .polledAttr = [] <;> cases type <;>
      simp [changed,changes,deletions,puts,addUpdate,insertFirst,storedAs,writeAll,polledList,hc,ha]
  by_cases ha : s.mem .polledAttr = []
  · refine iff_of_true (fun type => ?_) (.inr ha)
    cases type <;>
      simp [changed,changes,deletions,puts,addUpdate,insertFirst,storedAs,writeAll,polledList,hc,ha]
  · rw [changes_both d hc ha]
    refine iff_of_false (fun h => ?_) (by simp [hc,ha])
    have hattr := h .pollAttr
    simp only [changed,writeAll,List.foldl_cons,List.foldl_nil,polledList,Function.update_self,storedAs,ha,
      if_false] at hattr
    split at hattr
    next => cases hattr
    next => exact ha (List.map_eq_nil_iff.mp (Option.some.inj hattr).symm)

/-- What the clean-up is to do with the device's lists, the code returned and the properties. -/
structure CleanedUp (dev : Device) (s : State) (ret : Int) (s' : State) : Prop where
  cmds : pairs (s'.mem .polledCmd) = keptPairs dev.commands (s.mem .polledCmd)
  attrs : pairs (s'.mem .polledAttr) = keptPairs dev.attributes (s.mem .polledAttr)
  even : ∀ type, (s'.mem (polledList type)).length % 2 = 0
  code : ret = modified (nbMissing dev.commands (s.mem .polledCmd) ≠ 0)
    (nbMissing dev.attributes (s.mem .polledAttr) ≠ 0)
  stored : PolledStored s'

variable (dev : Device) {s' : State}

theorem checked_lists (he : ∀ type, (s.mem (polledList type)).length % 2 = 0) :
    let r := checkDevPoll dev s
    pairs (r.2.mem .polledCmd) = keptPairs dev.commands (s.mem .polledCmd) ∧
      pairs (r.2.mem .polledAttr) = keptPairs dev.attributes (s.mem .polledAttr) ∧
      (∀ type, (r.2.mem (polledList type)).length % 2 = 0) ∧
      r.1 = noteAttr^[nbMissing dev.attributes (s.mem .polledAttr)]
        (noteCmd^[nbMissing dev.commands (s.mem .polledCmd)] 0) := by
  obtain ⟨hce,hcp,hcr⟩ := checkList_spec (l := s.mem .polledCmd) dev.commands noteCmd 0 (he .pollCmd)
  obtain ⟨hae,hap,har⟩ := checkList_spec (l := s.mem .polledAttr) dev.attributes noteAttr
    (checkList dev.commands noteCmd 0 (s.mem .polledCmd)).1 (he .pollAttr)
  refine ⟨hcp,hap,fun type => ?_,?_⟩
  · cases type with
    | pollCmd => exact hce
    | pollAttr => exact hae
  · rw [← hcr]
    exact har

theorem polledStored_one (type : PollObjType) (s : State)
    (hother : ∀ type', type' ≠ type → s.db (polledList type') = storedAs (s.mem (polledList type'))) :
    PolledStored (changed s (changes d (addUpdate (polledList type) (s.mem (polledList type)) ⟨[],[]⟩))) := by
  rw [changes_one]
  intro type'
  by_cases ht : type' = type
  · rw [ht]
    exact Function.update_self _ _ _
  · exact (Function.update_of_ne (fun he => ht (polled_inj he)) _ _).trans (hother type' ht)

/-- A list nothing was erased from is still what the database has. -/
theorem untouched_stored (hs : PolledStored s) :
    (nbMissing dev.commands (s.mem .polledCmd) = 0 →
      (checkDevPoll dev s).2.db .polledCmd = storedAs ((checkDevPoll dev s).2.mem .polledCmd)) ∧
    (nbMissing dev.attributes (s.mem .polledAttr) = 0 →
      (checkDevPoll dev s).2.db .polledAttr = storedAs ((checkDevPoll dev s).2.mem .polledAttr)) := by
  constructor
  · intro h
    exact (hs .pollCmd).trans (congrArg storedAs (checkList_untouched h).symm)
  · intro h
    exact (hs .pollAttr).trans (congrArg storedAs (checkList_untouched h).symm)

/-- The properties written for the code that is right. -/
theorem polledStored_iff (h₁ : State) (c a : Nat) (hcmd : c = 0 → h₁.db .polledCmd = storedAs (h₁.mem .polledCmd))
    (hattr : a = 0 → h₁.db .polledAttr = storedAs (h₁.mem .polledAttr)) :
    PolledStored (changed h₁ (changes d (propUpdate (modified (c ≠ 0) (a ≠ 0)) h₁))) ↔
      c = 0 ∨ a = 0 ∨ h₁.mem .polledCmd = [] ∨ h₁.mem .polledAttr = [] := by
  by_cases hc : c = 0
  · refine iff_of_true ?_ (.inl hc)
    by_cases ha : a = 0
    · rw [hc,ha]
      intro type
      cases type with
      | pollCmd => exact hcmd hc
      | pollAttr => exact hattr ha
    · have hcode : modified (c ≠ 0) (a ≠ 0) = -2 := by simp [modified,hc,ha]
      rw [hcode]
      refine polledStored_one d .pollAttr h₁ fun type ht => ?_
      cases type with
      | pollCmd => exact hcmd hc
      | pollAttr => exact absurd rfl ht
  · by_cases ha : a = 0
    · have hcode : modified (c ≠ 0) (a ≠ 0) = -1 := by simp [modified,hc,ha]
      rw [hcode]
      refine iff_of_true (polledStored_one d .pollCmd h₁ fun type ht => ?_) (.inr (.inl ha))
      cases type with
      | pollCmd => exact absurd rfl ht
      | pollAttr => exact hattr ha
    · have hcode : modified (c ≠ 0) (a ≠ 0) = -3 := by simp [modified,hc,ha]
      rw [hcode]
      refine (polledStored_both d h₁).trans ?_
      simp only [hc,ha,false_or]

/-- The clean-up is right unless commands are erased and several attributes are, or one is and some
of both is left. -/
theorem polled_lists_cleaned_up (starting : Bool) (answers : List (Answer × Answer))
    (he : ∀ type, (s.mem (polledList type)).length % 2 = 0) (hs : PolledStored s)
    (h : updPollingProp d starting answers (checkDevPoll dev s).1 (checkDevPoll dev s).2 = some s') :
    CleanedUp dev s (checkDevPoll dev s).1 s' ↔
      nbMissing dev.commands (s.mem .polledCmd) = 0 ∨ nbMissing dev.attributes (s.mem .polledAttr) = 0 ∨
        nbMissing dev.attributes (s.mem .polledAttr) = 1 ∧
          (keptPairs dev.commands (s.mem .polledCmd) = [] ∨ keptPairs dev.attributes (s.mem .polledAttr) = []) := by
  obtain ⟨hcmds,hattrs,heven,hcode⟩ := checked_lists dev he
  obtain ⟨hcmd,hattr⟩ := untouched_stored dev hs
  have hs' := updateDb_changed d _ starting dbStartPhaseRetries answers h
  have hparts : CleanedUp dev s (checkDevPoll dev s).1 s' ↔
      (checkDevPoll dev s).1 = modified (nbMissing dev.commands (s.mem .polledCmd) ≠ 0)
        (nbMissing dev.attributes (s.mem .polledAttr) ≠ 0) ∧ PolledStored s' := by
    constructor
    · exact fun h => ⟨h.code,h.stored⟩
    · rintro ⟨hret,hst⟩
      rw [hs'] at hst ⊢
      exact ⟨hcmds,hattrs,heven,hret,hst⟩
  have hnil : ((checkDevPoll dev s).2.mem .polledCmd = [] ↔ keptPairs dev.commands (s.mem .polledCmd) = []) ∧
      ((checkDevPoll dev s).2.mem .polledAttr = [] ↔ keptPairs dev.attributes (s.mem .polledAttr) = []) :=
    ⟨by rw [← hcmds]; exact (pairs_nil (heven .pollCmd)).symm,
      by rw [← hattrs]; exact (pairs_nil (heven .pollAttr)).symm⟩
  rw [hparts]
  by_cases hright : nbMissing dev.commands (s.mem .polledCmd) = 0 ∨ nbMissing dev.attributes (s.mem .polledAttr) ≤ 1
  · have hret := (ret_eq_modified _ _).mpr hright
    rw [← hcode] at hret
    rw [and_iff_right hret,hs',hret,polledStored_iff d _ _ _ hcmd hattr,hnil.1,hnil.2]
    refine or_congr_right' fun hc => or_congr_right' fun ha => (and_iff_right ?_).symm
    have := hright.resolve_left hc
    omega
  · rw [hcode,ret_eq_modified]
    exact iff_of_false (fun h => hright h.1) (by omega)

end Update

section Examples

def magnet : Device where
  commands := ["Init".toList,"State".toList,"Status".toList]
  attributes := ["Current".toList,"Field".toList]

/-- As the device reads its lists from the database. -/
def startUp (cmds attrs : List String) : State :=
  let list (name : PropName) : List Text :=
    match name with
    | .polledCmd => cmds.map String.toList
    | .polledAttr => attrs.map String.toList
    | _ => []
  ⟨list,fun name => storedAs (list name),[]⟩

theorem polled_lists_cleaned_up_attr :
    ∃ s', CleanedUp magnet (startUp ["Status","1000"] ["Gone","500","Field","500"]) (-2) s' :=
  ⟨_,(polled_lists_cleaned_up ⟨false⟩ magnet true [(.done,.done)] (s := startUp ["Status","1000"]
    ["Gone","500","Field","500"]) (fun type => by cases type <;> decide) (fun _ => rfl) rfl).mpr (.inl (by decide))⟩

/-- One command and one attribute do not exist any more: the attributes end in `polled_cmd`. -/
theorem polled_cmd_overwritten :
    let s := startUp ["Ramp","3000","Status","1000"] ["Gone","500","Field","500"]
    ∃ s', updPollingProp ⟨false⟩ true [(.done,.done)] (checkDevPoll magnet s).1 (checkDevPoll magnet s).2 = some s' ∧
      s'.db .polledCmd = some ["Field".toList,"500".toList] ∧ s'.db .polledAttr = none ∧
      ¬CleanedUp magnet s (checkDevPoll magnet s).1 s' := by
  refine ⟨_,rfl,by decide,by decide,fun h => ?_⟩
  have hcmd := h.stored .pollCmd
  exact absurd hcmd (by decide)

end Examples

end CppTango.Polling.Properties
