import CppTango.Polling.Thread
import CppTango.Polling.PoolConf
import Mathlib.Data.List.TakeWhile
import Mathlib.Logic.Function.Basic

namespace CppTango.Polling.Properties

open CppTango.Polling.PoolConf

/-- The polling properties of a device, which also name its four lists. -/
inductive PropName
  | polledCmd | polledAttr | nonAutoPolledCmd | nonAutoPolledAttr
deriving DecidableEq, Repr

def polledList : PollObjType → PropName
  | .pollCmd => .polledCmd
  | .pollAttr => .polledAttr

def nonAutoList : PollObjType → PropName
  | .pollCmd => .nonAutoPolledCmd
  | .pollAttr => .nonAutoPolledAttr

/-- A string as its users see it, up to the first NUL. -/
def cStr (s : Text) : Text := s.takeWhile (· ≠ '\x00')

/-- What `TG_strcasecmp` compares. -/
def key (s : Text) : Text := lower (cStr s)

structure State where
  mem : PropName → List Text
  db : PropName → Option (List Text)
  pollObjs : List (PollObjType × Text)

/-- A database, with what it does when an empty list is put in it: it keeps a property without
values, or none. -/
structure Database where
  keepsEmpty : Bool
deriving DecidableEq, Repr

section Write
variable (d : Database)

def putProperty (s : State) (name : PropName) (list : List Text) : State :=
  let values := if list = [] ∧ d.keepsEmpty = false then none else some (list.map cStr)
  { s with db := Function.update s.db name values }

def deleteProperty (s : State) (name : PropName) : State :=
  { s with db := Function.update s.db name none }

def setList (s : State) (name : PropName) (list : List Text) : State :=
  { s with mem := Function.update s.mem name list }

/-- Names at even places, each with its period behind it. The period of the name is replaced;
when the index gets to the size of the list both are appended. -/
def setPeriod (objName upd : Text) : List Text → List Text
  | [] => [objName,upd]
  | [a] => [a]
  | a::b::rest =>
    if key a = key objName then a :: upd :: rest else a :: b :: setPeriod objName upd rest

/-- The list without the name and its period, when the name is in it. -/
def removePair (objName : Text) : List Text → Option (List Text)
  | [] => none
  | [_] => none
  | a::b::rest =>
    if key a = key objName then some rest
    else (removePair objName rest).map (fun l => a :: b :: l)

inductive ObjType
  | command | attribute
deriving DecidableEq, Repr

inductive Request
  | addObjPolling (objType : ObjType) (name : Text) (upd : Nat)
  | updObjPollingPeriod (objType : ObjType) (name : Text) (upd : Nat)
  | remObjPolling (objType : ObjType) (name : Text)
deriving DecidableEq, Repr

def isState (objName : Text) : Bool := objName = "state".toList || objName = "status".toList

/-- State and Status are polled as attributes, in `add_obj_polling` only from release 3 of the
interface on. -/
def pollType (idl : Nat) : Request → PollObjType
  | .addObjPolling .command name _ =>
    if 3 ≤ idl ∧ isState (key name) = true then .pollAttr else .pollCmd
  | .updObjPollingPeriod .command name _ | .remObjPolling .command name =>
    if isState (key name) = true then .pollAttr else .pollCmd
  | _ => .pollAttr

def Request.objName : Request → Text
  | .addObjPolling _ name _ | .updObjPollingPeriod _ name _ | .remObjPolling _ name => key name

def addLists (type : PollObjType) (objName updStr : Text) (s : State) : State :=
  let old := s.mem (nonAutoList type)
  let nonAuto := old.filter (fun other => key other ≠ key objName)
  let foundInNonAuto := decide (nonAuto.length ≠ old.length)
  let s := setList s (nonAutoList type) nonAuto
  let s := if foundInNonAuto then s
    else setList s (polledList type) (setPeriod objName updStr (s.mem (polledList type)))
  match type,foundInNonAuto with
  | .pollCmd,true => putProperty d s .nonAutoPolledCmd (s.mem (nonAutoList type))
  | .pollCmd,false => putProperty d s .polledCmd (s.mem (polledList type))
  -- the list of the attributes goes to the property of the commands
  | .pollAttr,true => putProperty d s .nonAutoPolledCmd (s.mem (nonAutoList type))
  | .pollAttr,false => putProperty d s .polledAttr (s.mem (polledList type))

def updLists (type : PollObjType) (objName updStr : Text) (s : State) : State :=
  let s := setList s (polledList type) (setPeriod objName updStr (s.mem (polledList type)))
  putProperty d s (polledList type) (s.mem (polledList type))

def storeOrDelete (s : State) (name : PropName) : State :=
  if s.mem name = [] then deleteProperty s name else putProperty d s name (s.mem name)

def remLists (type : PollObjType) (objName : Text) (s : State) : State :=
  match removePair objName (s.mem (polledList type)) with
  | some list => storeOrDelete d (setList s (polledList type) list) (polledList type)
  | none =>
    if (s.mem (nonAutoList type)).any (fun other => key other = key objName) then s
    else storeOrDelete d (setList s (nonAutoList type) (s.mem (nonAutoList type) ++ [objName]))
      (nonAutoList type)

/-- A request that succeeds. The period that `upd_obj_polling_period` writes ends with the NUL
of `std::ends`. -/
def step (idl : Nat) (s : State) (r : Request) : State :=
  let type := pollType idl r
  match r with
  | .addObjPolling _ _ upd =>
    { addLists d type r.objName (Nat.toDigits 10 upd) s with
      pollObjs := s.pollObjs ++ [(type,r.objName)] }
  | .updObjPollingPeriod _ _ upd => updLists d type r.objName (Nat.toDigits 10 upd ++ ['\x00']) s
  | .remObjPolling _ _ =>
    { remLists d type r.objName s with pollObjs := s.pollObjs.erase (type,r.objName) }

/-- A request only succeeds for an object that is polled, or to be added and is not. -/
def Legal (idl : Nat) (s : State) (r : Request) : Prop :=
  match r with
  | .addObjPolling _ _ _ => (pollType idl r,r.objName) ∉ s.pollObjs
  | _ => (pollType idl r,r.objName) ∈ s.pollObjs

instance (idl : Nat) (s : State) (r : Request) : Decidable (Legal idl s r) :=
  match r with
  | .addObjPolling _ _ _ => inferInstanceAs (Decidable (_ ∉ _))
  | .updObjPollingPeriod _ _ _ => inferInstanceAs (Decidable (_ ∈ _))
  | .remObjPolling _ _ => inferInstanceAs (Decidable (_ ∈ _))

end Write

def names : List Text → List Text
  | [] => []
  | [a] => [a]
  | a::_::rest => a :: names rest

/-- The properties in the database are the lists in memory. -/
structure Mirrored (s : State) : Prop where
  same : ∀ p, s.db p = if s.mem p = [] then none else some ((s.mem p).map cStr)
  even : ∀ type, (s.mem (polledList type)).length % 2 = 0
  once : ∀ type, ((names (s.mem (polledList type))).map key).Nodup
  apart : ∀ type, ∀ a ∈ names (s.mem (polledList type)), ∀ b ∈ s.mem (nonAutoList type), key a ≠ key b

/-- An object that is polled is on no list of those not to be, and is polled once. -/
structure Started (s : State) : Prop where
  mirrored : Mirrored s
  nodup : s.pollObjs.Nodup
  lowered : ∀ o ∈ s.pollObjs, key o.2 = o.2
  auto : ∀ o ∈ s.pollObjs, ∀ b ∈ s.mem (nonAutoList o.1), key b ≠ key o.2

/-- When a request writes the property it has changed. -/
def Clean (d : Database) (idl : Nat) (s : State) (r : Request) : Prop :=
  match r with
  | .addObjPolling _ _ _ =>
    (∃ b ∈ s.mem (nonAutoList (pollType idl r)), key b = key r.objName) →
      pollType idl r = .pollCmd ∧
        (d.keepsEmpty = false ∨ ∃ b ∈ s.mem (nonAutoList (pollType idl r)), key b ≠ key r.objName)
  | _ => True

section Pairs
variable {l : List Text} (objName upd : Text)

theorem even_tail {a b : Text} {l : List Text} (h : (a :: b :: l).length % 2 = 0) :
    l.length % 2 = 0 := by
  simp only [List.length_cons] at h
  omega

theorem set_period_spec (h : l.length % 2 = 0) :
    (setPeriod objName upd l).length % 2 = 0 ∧ setPeriod objName upd l ≠ [] ∧
      names (setPeriod objName upd l) =
        if key objName ∈ (names l).map key then names l else names l ++ [objName] := by
  induction l using names.induct with
  | case1 => simp [setPeriod,names]
  | case2 a => simp at h
  | case3 a b rest ih =>
    have hrest := even_tail h
    obtain ⟨he,-,hn⟩ := ih hrest
    rw [setPeriod]
    by_cases hk : key a = key objName
    · rw [if_pos hk]
      refine ⟨by simpa using h,List.cons_ne_nil _ _,?_⟩
      rw [names,names,List.map_cons,if_pos (by rw [hk]; exact List.mem_cons_self)]
    · rw [if_neg hk]
      refine ⟨by simp only [List.length_cons]; omega,List.cons_ne_nil _ _,?_⟩
      rw [names,hn,names]
      simp only [List.map_cons,List.mem_cons,Ne.symm hk,false_or]
      split <;> rfl

theorem remove_pair_none (h : l.length % 2 = 0) (hr : removePair objName l = none) :
    key objName ∉ (names l).map key := by
  induction l using names.induct with
  | case1 => simp [names]
  | case2 a => simp at h
  | case3 a b rest ih =>
    rw [removePair] at hr
    split at hr
    · cases hr
    · rename_i hk
      rw [Option.map_eq_none_iff] at hr
      rw [names,List.map_cons,List.mem_cons]
      exact not_or.mpr ⟨Ne.symm hk,ih (even_tail h) hr⟩

theorem remove_pair_some {l' : List Text} (h : l.length % 2 = 0)
    (hr : removePair objName l = some l') :
    l'.length % 2 = 0 ∧ (names l').Sublist (names l) ∧ key objName ∈ (names l).map key := by
  induction l using names.induct generalizing l' with
  | case1 => cases hr
  | case2 a => simp at h
  | case3 a b rest ih =>
    rw [removePair] at hr
    split at hr
    · rename_i hk
      cases hr
      refine ⟨even_tail h,List.sublist_cons_self _ _,?_⟩
      rw [names,List.map_cons,hk]
      exact List.mem_cons_self
    · obtain ⟨l₁,h₁,rfl⟩ := Option.map_eq_some_iff.mp hr
      obtain ⟨he,hs,hm⟩ := ih (even_tail h) h₁
      refine ⟨by simp only [List.length_cons]; omega,hs.cons_cons a,?_⟩
      rw [names,List.map_cons]
      exact List.mem_cons_of_mem _ hm

end Pairs

/-- A list changed in memory and stored as it is, or deleted when it is empty. -/
def written (s : State) (p : PropName) (list : List Text) : State where
  mem := Function.update s.mem p list
  db := Function.update s.db p (if list = [] then none else some (list.map cStr))
  pollObjs := s.pollObjs

theorem polled_ne_non_auto (type type' : PollObjType) : polledList type ≠ nonAutoList type' := by
  cases type <;> cases type' <;> decide

theorem polled_inj {type type' : PollObjType} (h : polledList type = polledList type') :
    type = type' := by
  cases type <;> cases type' <;> first | rfl | cases h

theorem non_auto_inj {type type' : PollObjType} (h : nonAutoList type = nonAutoList type') :
    type = type' := by
  cases type <;> cases type' <;> first | rfl | cases h

section Written
variable {s : State} (h : Mirrored s)
include h

theorem same_written (p : PropName) (list : List Text) (q : PropName) :
    (written s p list).db q =
      if (written s p list).mem q = [] then none else some (((written s p list).mem q).map cStr) := by
  by_cases hq : q = p
  · subst hq
    simp [written]
  · simp only [written,Function.update_of_ne hq]
    exact h.same q

theorem mirrored_polled {type : PollObjType} {list : List Text} (he : list.length % 2 = 0)
    (ho : ((names list).map key).Nodup)
    (ha : ∀ a ∈ names list, ∀ b ∈ s.mem (nonAutoList type), key a ≠ key b) :
    Mirrored (written s (polledList type) list) := by
  have hnon : ∀ type', (written s (polledList type) list).mem (nonAutoList type') =
      s.mem (nonAutoList type') := fun type' =>
    Function.update_of_ne (polled_ne_non_auto type type').symm _ _
  have hother : ∀ type', type' ≠ type → (written s (polledList type) list).mem (polledList type') =
      s.mem (polledList type') := fun type' hne =>
    Function.update_of_ne (fun he => hne (polled_inj he)) _ _
  have hown : (written s (polledList type) list).mem (polledList type) = list :=
    Function.update_self _ _ _
  refine ⟨same_written h _ _,?_,?_,?_⟩
  · intro type'
    by_cases ht : type' = type
    · rw [ht,hown]
      exact he
    · rw [hother type' ht]
      exact h.even type'
  · intro type'
    by_cases ht : type' = type
    · rw [ht,hown]
      exact ho
    · rw [hother type' ht]
      exact h.once type'
  · intro type'
    rw [hnon type']
    by_cases ht : type' = type
    · rw [ht,hown]
      exact ha
    · rw [hother type' ht]
      exact h.apart type'

theorem mirrored_non_auto {type : PollObjType} {list : List Text}
    (ha : ∀ a ∈ names (s.mem (polledList type)), ∀ b ∈ list, key a ≠ key b) :
    Mirrored (written s (nonAutoList type) list) := by
  have hpolled : ∀ type', (written s (nonAutoList type) list).mem (polledList type') =
      s.mem (polledList type') := fun type' =>
    Function.update_of_ne (polled_ne_non_auto type' type) _ _
  refine ⟨same_written h _ _,?_,?_,?_⟩
  · intro type'
    rw [hpolled type']
    exact h.even type'
  · intro type'
    rw [hpolled type']
    exact h.once type'
  · intro type'
    rw [hpolled type']
    by_cases ht : type' = type
    · subst ht
      have hown : (written s (nonAutoList type') list).mem (nonAutoList type') = list :=
        Function.update_self _ _ _
      rw [hown]
      exact ha
    · have hother : (written s (nonAutoList type) list).mem (nonAutoList type') =
          s.mem (nonAutoList type') := Function.update_of_ne (fun he => ht (non_auto_inj he)) _ _
      rw [hother]
      exact h.apart type'

/-- A period set for an object that is on no list of those not to be polled. -/
theorem mirrored_set_period (type : PollObjType) (objName upd : Text)
    (hn : ∀ b ∈ s.mem (nonAutoList type), key b ≠ key objName) :
    Mirrored (written s (polledList type) (setPeriod objName upd (s.mem (polledList type)))) := by
  obtain ⟨he,-,hnames⟩ := set_period_spec objName upd (h.even type)
  refine mirrored_polled h he ?_ ?_
  · rw [hnames]
    split
    · exact h.once type
    · rename_i hk
      rw [List.map_append,List.map_cons,List.map_nil,List.nodup_append]
      refine ⟨h.once type,by simp,?_⟩
      rintro a ha b hb rfl
      rw [List.mem_singleton.mp hb] at ha
      exact hk ha
  · rw [hnames]
    intro a ha b hb
    split at ha
    · exact h.apart type a ha b hb
    · rcases List.mem_append.mp ha with hm | hm
      · exact h.apart type a hm b hb
      · rw [List.mem_singleton.mp hm]
        exact (hn b hb).symm

end Written

section Specs
variable (d : Database) (type : PollObjType) (objName : Text) (s : State)

theorem put_written {list : List Text} (p : PropName) (h : d.keepsEmpty = false ∨ list ≠ []) :
    putProperty d (setList s p list) p list = written s p list := by
  unfold putProperty setList written
  by_cases hl : list = []
  · simp [hl,h.resolve_right (fun hn => hn hl)]
  · simp [hl]

theorem store_or_delete_written (p : PropName) (list : List Text) :
    storeOrDelete d (setList s p list) p = written s p list := by
  have hm : (setList s p list).mem p = list := Function.update_self _ _ _
  unfold storeOrDelete
  rw [hm]
  split
  · rename_i hl
    subst hl
    rfl
  · rename_i hl
    exact put_written d s p (Or.inr hl)

theorem mem_setList_self (p : PropName) (list : List Text) : (setList s p list).mem p = list :=
  Function.update_self _ _ _

/-- The names of the list that are other than the one given. -/
def others (objName : Text) (list : List Text) : List Text :=
  list.filter (fun other => key other ≠ key objName)

theorem others_length {list : List Text} :
    (others objName list).length = list.length ↔ ∀ b ∈ list, key b ≠ key objName := by
  unfold others
  rw [List.length_filter_eq_length_iff]
  simp

theorem add_absent {upd : Text} (he : (s.mem (polledList type)).length % 2 = 0)
    (hn : ∀ b ∈ s.mem (nonAutoList type), key b ≠ key objName) :
    addLists d type objName upd s =
      written s (polledList type) (setPeriod objName upd (s.mem (polledList type))) := by
  have hlen := (others_length objName).mpr hn
  have hsame : others objName (s.mem (nonAutoList type)) = s.mem (nonAutoList type) :=
    List.filter_eq_self.mpr (fun b hb => by simpa using hn b hb)
  have hset : setList s (nonAutoList type) (s.mem (nonAutoList type)) = s := by
    unfold setList
    rw [Function.update_eq_self]
  have hne := (set_period_spec objName upd he).2.1
  unfold others at hsame hlen
  simp only [addLists,hsame,hset,ne_eq,not_true_eq_false,decide_false,Bool.false_eq_true,if_false]
  cases type with
  | pollCmd =>
    rw [mem_setList_self]
    exact put_written d s .polledCmd (Or.inr hne)
  | pollAttr =>
    rw [mem_setList_self]
    exact put_written d s .polledAttr (Or.inr hne)

/-- Which property is written for an object taken off the list of those not to be polled. -/
theorem add_present {upd : Text} (hn : ∃ b ∈ s.mem (nonAutoList type), key b = key objName) :
    addLists d type objName upd s =
      putProperty d (setList s (nonAutoList type) (others objName (s.mem (nonAutoList type))))
        .nonAutoPolledCmd (others objName (s.mem (nonAutoList type))) := by
  have hlen : (others objName (s.mem (nonAutoList type))).length ≠ (s.mem (nonAutoList type)).length := by
    intro he
    obtain ⟨b,hb,hk⟩ := hn
    exact (others_length objName).mp he b hb hk
  unfold others at hlen ⊢
  simp only [addLists,ne_eq,hlen,not_false_eq_true,decide_true,if_true]
  cases type with
  | pollCmd => rw [mem_setList_self]
  | pollAttr => rw [mem_setList_self]

theorem upd_written {upd : Text} (he : (s.mem (polledList type)).length % 2 = 0) :
    updLists d type objName upd s =
      written s (polledList type) (setPeriod objName upd (s.mem (polledList type))) := by
  simp only [updLists,mem_setList_self]
  exact put_written d s _ (Or.inr (set_period_spec objName upd he).2.1)

theorem rem_written :
    remLists d type objName s =
      match removePair objName (s.mem (polledList type)) with
      | some list => written s (polledList type) list
      | none =>
        if (s.mem (nonAutoList type)).any (fun other => key other = key objName) then s
        else written s (nonAutoList type) (s.mem (nonAutoList type) ++ [objName]) := by
  unfold remLists
  simp only [store_or_delete_written]

end Specs

end CppTango.Polling.Properties
