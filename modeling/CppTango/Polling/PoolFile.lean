import CppTango.Polling.PoolConf
import Mathlib.Algebra.Ring.Nat

namespace CppTango.Polling.PoolFile

open CppTango.Lib
open CppTango.Polling.PoolConf

def maxDevPropLength : Nat := 255

/-- An entry as it is stored: lines of at most the length of a property, each but the last
with a backslash behind it. The length is kept in 32 bits. -/
def cutEntry (v : Text) : List Text :=
  let length := v.length % 2 ^ 32
  let nbLines := length / maxDevPropLength + 1
  if 1 < nbLines then
    (List.range nbLines).map (fun i =>
      let sub := (v.drop (i * maxDevPropLength)).take maxDevPropLength
      if i < nbLines - 1 then sub ++ ['\\'] else sub)
  else [v]

/-- The loop of `get_dev_prop` over the lines, with the string it is rebuilding; there is no
result when it reads the last character of an empty line. -/
def rebuild : List Text → Text → Option (List Text)
  | [],_ => some []
  | line::lines,acc =>
    match line.getLast? with
    | none => none
    | some c =>
      if c = '\\' then rebuild lines (acc ++ line.dropLast)
      else (rebuild lines []).map (fun conf => (acc ++ line) :: conf)

/-- The configuration a restarted server reads; a property that is not there gives none. -/
def getDevProp (db : Option (List Text)) : Option (List Text) :=
  match db with
  | none => some []
  | some lines => rebuild lines []

inductive Writer
  | addObjPolling | remObjPolling | updPollingProp
deriving DecidableEq, Repr

/-- What each of the three stores of a configuration. -/
def Writer.write (w : Writer) (conf : List Text) : Option (List Text) :=
  match w with
  | .addObjPolling => some (conf.flatMap cutEntry)
  | .remObjPolling => some conf
  | .updPollingProp => if conf = [] then none else some (conf.flatMap cutEntry)

structure State where
  pollPoolConf : List Text
  confNeedsDbUpd : Bool
  db : Option (List Text)
deriving DecidableEq, Repr

inductive Change
  /-- a device whose polling thread has just been created -/
  | addNew (dev : Text)
  /-- a device given to the thread of an entry -/
  | addTo (ind : Nat) (dev : Text)
  | rem (dev : Text)
  /-- the end of `polling_configure`: the devices of each thread, and the names of the devices
  left without polled objects -/
  | configure (ths : List (List Text)) (unpolled : List Text)
deriving DecidableEq, Repr

def Change.writer : Change → Writer
  | .addNew _ | .addTo _ _ => .addObjPolling
  | .rem _ => .remObjPolling
  | .configure _ _ => .updPollingProp

def store (w : Writer) (s : State) : State := { s with db := w.write s.pollPoolConf }

def buildFirstPoolConf (ths : List (List Text)) : List Text := ths.map joined

def updDevices (devs : List Text) (s : State) : State :=
  devs.foldl (fun s dName =>
    let r := updPollingProp dName s.pollPoolConf
    { s with pollPoolConf := r.1, confNeedsDbUpd := s.confNeedsDbUpd || r.2 }) s

/-- The state after a change, and whether the configuration was saved. -/
def step (s : State) : Change → State × Bool
  | .addNew dev =>
    (store .addObjPolling { s with pollPoolConf := s.pollPoolConf ++ [lower dev] },true)
  | .addTo ind dev =>
    (store .addObjPolling { s with
      pollPoolConf := s.pollPoolConf.modify ind (fun e => e ++ ',' :: lower dev) },true)
  | .rem dev =>
    match remObjPolling s.pollPoolConf dev with
    | .error _ => (s,false)
    | .ok r => (store .remObjPolling { s with pollPoolConf := r.1 },true)
  | .configure ths unpolled =>
    let built := buildFirstPoolConf ths
    let s := if s.pollPoolConf = [] ∨ built ≠ s.pollPoolConf then
        { s with pollPoolConf := built, confNeedsDbUpd := true } else s
    let s := updDevices unpolled s
    if s.confNeedsDbUpd then (store .updPollingProp s,true) else (s,false)

/-- The states right after a save, each with the writer that saved. -/
def saves (s : State) : List Change → List (Writer × State)
  | [] => []
  | c::cs =>
    let r := step s c
    if r.2 then (c.writer,r.1) :: saves r.1 cs else saves r.1 cs

/-- No line is too long for a property, and a restart reads back what is in memory. -/
def SurvivesRestart (s : State) : Prop :=
  (∀ lines, s.db = some lines → ∀ line ∈ lines, line.length ≤ maxDevPropLength + 1) ∧
    getDevProp s.db = some s.pollPoolConf

/-- The lengths of entries a writer stores so that they can be read back. -/
def Writer.Fits (w : Writer) (conf : List Text) : Prop :=
  match w with
  | .remObjPolling => ∀ e ∈ conf, e ≠ [] ∧ e.length ≤ maxDevPropLength + 1
  | _ => ∀ e ∈ conf, e.length < 2 ^ 32 ∧ ¬ maxDevPropLength ∣ e.length

def Plain (s : Text) : Prop := '\\' ∉ s

section Cut
variable (v : Text)

def nbFull : Nat := v.length % 2 ^ 32 / maxDevPropLength

def fullLine (i : Nat) : Text := (v.drop (i * maxDevPropLength)).take maxDevPropLength ++ ['\\']

def lastLine : Text :=
  if nbFull v = 0 then v else (v.drop (nbFull v * maxDevPropLength)).take maxDevPropLength

theorem cut_entry_eq : cutEntry v = (List.range (nbFull v)).map (fullLine v) ++ [lastLine v] := by
  unfold cutEntry lastLine
  by_cases h : nbFull v = 0
  · have hl : ¬ 1 < v.length % 2 ^ 32 / maxDevPropLength + 1 := by
      rw [← nbFull,h]
      exact Nat.lt_irrefl 1
    rw [if_neg hl,if_pos h,h]
    rfl
  · have hl : 1 < v.length % 2 ^ 32 / maxDevPropLength + 1 :=
      Nat.succ_lt_succ (Nat.pos_of_ne_zero h)
    rw [if_pos hl,if_neg h,List.range_succ,List.map_append]
    simp only [Nat.add_sub_cancel]
    congr 1
    · refine List.map_congr_left (fun i hi => ?_)
      rw [if_pos (List.mem_range.mp hi)]
      rfl
    · simp [nbFull]

theorem line_length (i : Nat) : (fullLine v i).length ≤ maxDevPropLength + 1 := by
  simp only [fullLine,List.length_append,List.length_take,List.length_singleton]
  omega

/-- Full lines only add to the string that is being rebuilt. -/
theorem rebuild_full_lines (k : Nat) (rest : List Text) (acc : Text) :
    rebuild ((List.range k).map (fullLine v) ++ rest) acc =
      rebuild rest (acc ++ v.take (k * maxDevPropLength)) := by
  induction k generalizing rest with
  | zero => simp
  | succ k ih =>
    rw [List.range_succ,List.map_append,List.append_assoc,ih]
    simp only [List.map_cons,List.map_nil,List.singleton_append,rebuild,fullLine,
      List.getLast?_concat,List.dropLast_concat,if_true]
    rw [Nat.succ_mul,List.take_add,List.append_assoc]

variable {v}

theorem rebuild_plain {line : Text} (hp : Plain line) (rest : List Text) (acc : Text) :
    rebuild (line :: rest) acc =
      if line = [] then none else (rebuild rest []).map (fun conf => (acc ++ line) :: conf) := by
  rw [rebuild]
  cases hl : line.getLast? with
  | none => rw [if_pos (List.getLast?_eq_none_iff.mp hl)]
  | some c =>
    have hc : c ≠ '\\' := fun he => hp (he ▸ List.mem_of_getLast? hl)
    have hne : line ≠ [] := List.ne_nil_of_mem (List.mem_of_getLast? hl)
    rw [if_neg hne]
    exact if_neg hc

theorem plain_last (hp : Plain v) : Plain (lastLine v) := by
  unfold lastLine
  split
  · exact hp
  · exact fun hm => hp (List.mem_of_mem_drop (List.mem_of_mem_take hm))

/-- What comes back of one entry, whatever is stored behind it. -/
theorem rebuild_cut (hp : Plain v) (rest : List Text) :
    rebuild (cutEntry v ++ rest) [] =
      if lastLine v = [] then none
      else (rebuild rest []).map (fun conf =>
        (v.take (nbFull v * maxDevPropLength) ++ lastLine v) :: conf) := by
  rw [cut_entry_eq,List.append_assoc,rebuild_full_lines,List.singleton_append,
    rebuild_plain (plain_last hp),List.nil_append]

/-- One entry comes back whole. -/
def CutOk (v : Text) : Prop :=
  lastLine v ≠ [] ∧ v.take (nbFull v * maxDevPropLength) ++ lastLine v = v ∧
    (lastLine v).length ≤ maxDevPropLength + 1

theorem cut_ok_iff : CutOk v ↔ v.length < 2 ^ 32 ∧ ¬ maxDevPropLength ∣ v.length := by
  unfold CutOk lastLine nbFull maxDevPropLength
  constructor
  · rintro ⟨hne,hv,hl⟩
    split at hne
    · rename_i h0
      rw [if_pos h0] at hl
      have hpos := List.length_pos_iff.mpr hne
      have hlt : v.length < 2 ^ 32 := Nat.lt_of_le_of_lt hl (by decide)
      rw [Nat.mod_eq_of_lt hlt] at h0
      exact ⟨hlt,by omega⟩
    · rename_i h0
      rw [if_neg h0] at hv
      have hlen := congrArg List.length hv
      have hpos := List.length_pos_iff.mpr hne
      simp only [List.length_append,List.length_take,List.length_drop] at hlen hpos
      constructor <;> omega
  · rintro ⟨hlt,hd⟩
    rw [Nat.mod_eq_of_lt hlt]
    by_cases h0 : v.length / 255 = 0
    · rw [if_pos h0,h0]
      have hne : v ≠ [] := by
        rintro rfl
        simp at hd
      exact ⟨hne,by simp,by omega⟩
    · rw [if_neg h0]
      refine ⟨?_,?_,?_⟩
      · intro hn
        have := congrArg List.length hn
        simp only [List.length_take,List.length_drop,List.length_nil] at this
        omega
      · rw [← List.take_add]
        exact List.take_of_length_le (by omega)
      · rw [List.length_take]
        omega

end Cut

section Conf
variable {conf : List Text} (hp : ∀ e ∈ conf, Plain e)
include hp

theorem cut_conf_iff :
    (∀ line ∈ conf.flatMap cutEntry, line.length ≤ maxDevPropLength + 1) ∧
        rebuild (conf.flatMap cutEntry) [] = some conf ↔ ∀ e ∈ conf, CutOk e := by
  induction conf with
  | nil => simp [rebuild]
  | cons v conf ih =>
    have hv := hp v List.mem_cons_self
    rw [List.forall_mem_cons,← ih (fun e he => hp e (List.mem_cons_of_mem _ he)),List.flatMap_cons,
      rebuild_cut hv]
    have hlines : (∀ line ∈ cutEntry v,line.length ≤ maxDevPropLength + 1) ↔
        (lastLine v).length ≤ maxDevPropLength + 1 := by
      rw [cut_entry_eq]
      constructor
      · exact fun h => h _ (List.mem_append_right _ List.mem_cons_self)
      · intro h line hm
        rcases List.mem_append.mp hm with hm | hm
        · obtain ⟨i,-,rfl⟩ := List.mem_map.mp hm
          exact line_length v i
        · rw [List.mem_singleton.mp hm]
          exact h
    rw [List.forall_mem_append,hlines]
    unfold CutOk
    by_cases hl : lastLine v = []
    · simp [hl]
    · rw [if_neg hl,Option.map_eq_some_iff]
      simp only [List.cons.injEq]
      constructor
      · rintro ⟨⟨h1,h2⟩,_,hr,hw,rfl⟩
        exact ⟨⟨hl,hw,h1⟩,h2,hr⟩
      · rintro ⟨⟨-,hw,h1⟩,h2,hr⟩
        exact ⟨⟨h1,h2⟩,conf,hr,hw,rfl⟩

theorem whole_conf_iff :
    rebuild conf [] = some conf ↔ ∀ e ∈ conf, e ≠ [] := by
  induction conf with
  | nil => simp [rebuild]
  | cons v conf ih =>
    have hv := hp v List.mem_cons_self
    rw [List.forall_mem_cons,← ih (fun e he => hp e (List.mem_cons_of_mem _ he)),rebuild_plain hv]
    by_cases hn : v = []
    · simp [hn]
    · rw [if_neg hn,Option.map_eq_some_iff]
      simp [hn]

/-- What a writer stores of a configuration can be read back when its entries fit. -/
theorem survives_iff {s : State} (hc : s.pollPoolConf = conf) {w : Writer}
    (hw : s.db = w.write conf) : SurvivesRestart s ↔ w.Fits conf := by
  unfold SurvivesRestart
  rw [hw,hc]
  have hcut : (∀ e ∈ conf, CutOk e) ↔ ∀ e ∈ conf, e.length < 2 ^ 32 ∧ ¬ maxDevPropLength ∣ e.length :=
    forall₂_congr (fun _ _ => cut_ok_iff)
  cases w with
  | addObjPolling =>
    simp only [Writer.write,Writer.Fits,getDevProp,Option.some.injEq,forall_eq']
    rw [cut_conf_iff hp,hcut]
  | remObjPolling =>
    simp only [Writer.write,Writer.Fits,getDevProp,Option.some.injEq,forall_eq']
    rw [whole_conf_iff hp]
    exact ⟨fun ⟨h1,h2⟩ e he => ⟨h2 e he,h1 e he⟩,fun h => ⟨fun e he => (h e he).2,fun e he => (h e he).1⟩⟩
  | updPollingProp =>
    simp only [Writer.write,Writer.Fits]
    by_cases hn : conf = []
    · simp [hn,getDevProp]
    · rw [if_neg hn]
      simp only [getDevProp,Option.some.injEq,forall_eq']
      rw [cut_conf_iff hp,hcut]

end Conf

def PlainConf (conf : List Text) : Prop := ∀ e ∈ conf, Plain e

def Change.PlainNames : Change → Prop
  | .addNew dev | .addTo _ dev | .rem dev => Plain dev
  | .configure ths _ => ∀ devs ∈ ths, ∀ dev ∈ devs, Plain dev

theorem plain_lower {dev : Text} (h : Plain dev) : Plain (lower dev) :=
  not_mem_lower (by decide) h

theorem plain_joined {es : List Text} (h : ∀ e ∈ es, Plain e) : Plain (joined es) := by
  induction es with
  | nil => exact List.not_mem_nil
  | cons e es ih =>
    obtain ⟨he,hs⟩ := List.forall_mem_cons.mp h
    cases es with
    | nil => simpa [joined] using he
    | cons e' es =>
      have hrest := ih hs
      unfold Plain joined at *
      rw [List.intercalate_cons_cons]
      simp [he,hrest]

theorem plain_sublist {s t : Text} (h : Plain t) (hs : s.Sublist t) : Plain s := fun hm => h (hs.subset hm)

theorem erase_at_sublist (s : Text) (pos n : Nat) : (eraseAt s pos n).Sublist s := by
  unfold eraseAt
  conv_rhs => rw [← List.take_append_drop pos s]
  rw [← List.drop_drop]
  exact List.Sublist.append_left (List.drop_sublist _ _) _

theorem plain_set {conf : List Text} (h : PlainConf conf) (ind : Nat) {e : Text}
    (he : e.Sublist (conf.getD ind [])) : PlainConf (conf.set ind e) := by
  intro x hx
  rcases List.mem_or_eq_of_mem_set hx with hm | rfl
  · exact h x hm
  · cases hg : conf[ind]? with
    | none =>
      rw [List.getD,hg] at he
      rw [List.sublist_nil.mp he]
      exact List.not_mem_nil
    | some y =>
      rw [List.getD,hg] at he
      exact plain_sublist (h y (List.mem_of_getElem? hg)) he

theorem plain_rem {conf : List Text} {dev : Text} (h : PlainConf conf)
    (hr : remObjPolling conf dev = .ok r) : PlainConf r.1 := by
  unfold remObjPolling at hr
  cases hi : getDevEntryInPoolConf conf (lower dev) with
  | none =>
    simp only [hi] at hr
    cases hr
  | some ind =>
    simp only [hi] at hr
    split at hr
    · split at hr
      · cases hr
        exact plain_set h ind (erase_at_sublist _ _ _)
      · cases hr
        exact plain_set h ind (List.take_sublist _ _)
    · cases hr
      exact fun e he => h e (List.mem_of_mem_eraseIdx he)

theorem plain_upd {conf : List Text} (dName : Text) (h : PlainConf conf) :
    PlainConf (updPollingProp dName conf).1 := by
  induction conf with
  | nil => exact h
  | cons tmp rest ih =>
    obtain ⟨ht,hrest⟩ := List.forall_mem_cons.mp h
    rw [updPollingProp]
    split
    · split
      · exact h
      · exact hrest
    · exact List.forall_mem_cons.mpr ⟨ht,ih hrest⟩

theorem plain_upd_devices {s : State} (devs : List Text) (h : PlainConf s.pollPoolConf) :
    PlainConf (updDevices devs s).pollPoolConf := by
  unfold updDevices
  induction devs generalizing s with
  | nil => exact h
  | cons d devs ih => exact ih (plain_upd d h)

/-- A change keeps names plain, and a save stores the configuration it leaves in memory. -/
theorem step_spec {s : State} (h : PlainConf s.pollPoolConf) {c : Change} (hc : c.PlainNames) :
    PlainConf (step s c).1.pollPoolConf ∧
      ((step s c).2 = true → (step s c).1.db = c.writer.write (step s c).1.pollPoolConf) := by
  cases c with
  | addNew dev =>
    refine ⟨?_,fun _ => rfl⟩
    intro e he
    rcases List.mem_append.mp he with hm | hm
    · exact h e hm
    · rw [List.mem_singleton.mp hm]
      exact plain_lower hc
  | addTo ind dev =>
    refine ⟨?_,fun _ => rfl⟩
    intro e he
    obtain ⟨i,hi⟩ := List.mem_iff_getElem?.mp he
    simp only [step,store,List.getElem?_modify] at hi
    obtain ⟨y,hy,rfl⟩ := Option.map_eq_some_iff.mp hi
    have hplain := h y (List.mem_of_getElem? hy)
    have hdev := plain_lower hc
    split
    · unfold Plain at *
      simp [hplain,hdev]
    · exact hplain
  | rem dev =>
    cases hr : remObjPolling s.pollPoolConf dev with
    | error e =>
      simp only [step,hr]
      exact ⟨h,fun hx => (by cases hx)⟩
    | ok r =>
      simp only [step,hr]
      exact ⟨plain_rem h hr,fun _ => rfl⟩
  | configure ths unpolled =>
    have hbuilt : PlainConf (buildFirstPoolConf ths) := by
      intro e he
      obtain ⟨devs,hd,rfl⟩ := List.mem_map.mp he
      exact plain_joined (hc devs hd)
    simp only [step]
    generalize hs' : (if s.pollPoolConf = [] ∨ buildFirstPoolConf ths ≠ s.pollPoolConf then
        { s with pollPoolConf := buildFirstPoolConf ths, confNeedsDbUpd := true } else s) = s'
    have hp : PlainConf s'.pollPoolConf := by
      rw [← hs']
      split
      · exact hbuilt
      · exact h
    have hu := plain_upd_devices unpolled hp
    split
    · exact ⟨hu,fun _ => rfl⟩
    · exact ⟨hu,fun hx => (by cases hx)⟩

/-- Every save of a run stores what is in memory then, without a backslash. -/
theorem saves_spec {s : State} (h : PlainConf s.pollPoolConf) {cs : List Change}
    (hc : ∀ c ∈ cs, c.PlainNames) :
    ∀ sv ∈ saves s cs, PlainConf sv.2.pollPoolConf ∧ sv.2.db = sv.1.write sv.2.pollPoolConf := by
  induction cs generalizing s with
  | nil => simp [saves]
  | cons c cs ih =>
    obtain ⟨hc0,hcs⟩ := List.forall_mem_cons.mp hc
    obtain ⟨hp,hw⟩ := step_spec h hc0
    have hrest := ih hp hcs
    simp only [saves]
    split
    · rename_i hsaved
      exact List.forall_mem_cons.mpr ⟨⟨hp,hw hsaved⟩,hrest⟩
    · exact hrest

/-- In every run, a restart after each save finds the configuration of the memory exactly when
at each save the lengths of the entries fit the writer. -/
theorem pool_conf_survives_restart (s : State) (h : PlainConf s.pollPoolConf) (cs : List Change)
    (hc : ∀ c ∈ cs, c.PlainNames) :
    (∀ sv ∈ saves s cs, SurvivesRestart sv.2) ↔
      ∀ sv ∈ saves s cs, sv.1.Fits sv.2.pollPoolConf := by
  refine forall₂_congr (fun sv hsv => ?_)
  obtain ⟨hp,hw⟩ := saves_spec h hc sv hsv
  exact survives_iff hp rfl hw

def startState : State := ⟨[],false,none⟩

/-- Two devices with a thread each, and the first of them removed again. -/
theorem survives_add_add_rem : PlainConf startState.pollPoolConf ∧
    ∀ sv ∈ saves startState [.addNew "sys/tg/1".toList,.addNew "sys/tg/2".toList,
      .rem "sys/tg/1".toList], SurvivesRestart sv.2 := by
  refine ⟨by simp [PlainConf,startState],?_⟩
  refine (pool_conf_survives_restart startState (by simp [PlainConf,startState]) _ ?_).mpr ?_
  · simp only [List.forall_mem_cons,Change.PlainNames,Plain]
    exact ⟨by decide,by decide,by decide,by simp⟩
  · have hs : saves startState [.addNew "sys/tg/1".toList,.addNew "sys/tg/2".toList,
        .rem "sys/tg/1".toList] =
        [(.addObjPolling,⟨["sys/tg/1".toList],false,some ["sys/tg/1".toList]⟩),
          (.addObjPolling,⟨["sys/tg/1".toList,"sys/tg/2".toList],false,
            some ["sys/tg/1".toList,"sys/tg/2".toList]⟩),
          (.remObjPolling,⟨["sys/tg/2".toList],false,some ["sys/tg/2".toList]⟩)] := by
      decide
    rw [hs]
    simp only [List.forall_mem_cons,Writer.Fits]
    exact ⟨⟨by decide,by simp⟩,⟨by decide,by decide,by simp⟩,⟨by decide,by simp⟩,by simp⟩

/-- One thread that polls 22 devices with names of ten characters. -/
def crowdedState : State where
  pollPoolConf := [joined ((List.range 22).map (fun i =>
    "sys/tg/1".toList ++ [Char.ofNat (48 + i / 10),Char.ofNat (48 + i % 10)]))]
  confNeedsDbUpd := false
  db := none

/-- A 23rd device whose name makes the entry as long as one line: behind the full line an
empty one is stored. -/
theorem full_entry_lost :
    ¬ ∀ sv ∈ saves crowdedState [.addTo 0 "sys/motor/123".toList], SurvivesRestart sv.2 := by
  intro h
  have hlast := (h _ List.mem_cons_self).2
  revert hlast
  decide +kernel

end CppTango.Polling.PoolFile
