import CppTango.Lib.Keyed
import CppTango.Polling.Thread
import Mathlib.Data.List.Nodup
import Mathlib.Data.List.Perm.Basic

namespace CppTango.Polling.PollThread

section Entries
variable {δ : Type}

/-- The objects of a work item, each with the period it is polled with. -/
def entries (w : WorkItem δ) : List (PollObj δ) :=
  w.name.map (fun n => ⟨⟨w.dev,w.type,n⟩,w.update⟩)

def listed (ws : List (WorkItem δ)) : List (PollObj δ) := ws.flatMap entries

def keys (objs : List (PollObj δ)) : List (ObjKey δ) := objs.map PollObj.key

@[simp] theorem listed_nil : listed ([] : List (WorkItem δ)) = [] := rfl

@[simp] theorem listed_cons (w : WorkItem δ) (ws : List (WorkItem δ)) :
    listed (w :: ws) = entries w ++ listed ws := rfl

@[simp] theorem listed_append (ws vs : List (WorkItem δ)) :
    listed (ws ++ vs) = listed ws ++ listed vs := by simp [listed]

theorem mem_entries {w : WorkItem δ} {obj : PollObj δ} (h : obj ∈ entries w) :
    obj.key.dev = w.dev ∧ obj.key.type = w.type ∧ obj.key.name ∈ w.name ∧ obj.upd = w.update := by
  obtain ⟨n,hn,rfl⟩ := List.mem_map.mp h
  exact ⟨rfl,rfl,hn,rfl⟩

theorem insert_listed (w : WorkItem δ) (ws : List (WorkItem δ)) :
    (listed (insertInList w ws)).Perm (entries w ++ listed ws) := by
  induction ws with
  | nil => rfl
  | cons v ws ih =>
    simp only [insertInList]
    split
    · rw [listed_cons,listed_cons]
      refine (ih.append_left _).trans ?_
      rw [← List.append_assoc,← List.append_assoc]
      exact List.perm_append_comm.append_right _
    · rfl

variable [DecidableEq δ]

theorem join_listed (key : ObjKey δ) (upd : Nat) (h : joinItem key upd ws = some ws') :
    (listed ws').Perm (⟨key,upd⟩ :: listed ws) := by
  induction ws generalizing ws' with
  | nil => cases h
  | cons w ws ih =>
    simp only [joinItem] at h
    split at h
    · rename_i hw
      obtain ⟨hd,hu,ht⟩ := hw
      cases h
      have hnew : entries { w with name := w.name ++ [key.name] } = entries w ++ [⟨key,upd⟩] := by
        simp [entries,hd,hu,ht]
      rw [listed_cons,hnew,listed_cons,List.append_assoc]
      exact List.perm_middle
    · obtain ⟨vs,hv,rfl⟩ := Option.map_eq_some_iff.mp h
      rw [listed_cons,listed_cons]
      exact ((ih hv).append_left _).trans List.perm_middle

theorem add_insert_listed (cfg : Config δ) (key : ObjKey δ) (upd : Nat) (date : Int)
    (ws : List (WorkItem δ)) :
    (listed (addInsertInList cfg key upd date ws)).Perm (⟨key,upd⟩ :: listed ws) := by
  unfold addInsertInList
  split
  · cases hj : joinItem key upd ws with
    | some ws' => exact join_listed key upd hj
    | none => exact insert_listed _ ws
  · exact insert_listed _ ws

theorem erase_listed (key : ObjKey δ) (h : eraseName key ws = some ws') :
    ∃ u, (listed ws).Perm (⟨key,u⟩ :: listed ws') := by
  induction ws generalizing ws' with
  | nil => cases h
  | cons w ws ih =>
    simp only [eraseName] at h
    split at h
    · rename_i hw
      obtain ⟨hd,ht,hn⟩ := hw
      have hsplit : (entries w).Perm
          (⟨key,w.update⟩ :: entries { w with name := w.name.erase key.name }) := by
        have hk : (⟨⟨w.dev,w.type,key.name⟩,w.update⟩ : PollObj δ) = ⟨key,w.update⟩ := by
          rw [hd,ht]
        rw [← hk]
        exact (List.perm_cons_erase hn).map _
      refine ⟨w.update,?_⟩
      rw [listed_cons]
      refine (hsplit.append_right _).trans ?_
      split at h
      · rename_i he
        cases h
        simp [entries,he]
      · cases h
        rfl
    · obtain ⟨vs,hv,rfl⟩ := Option.map_eq_some_iff.mp h
      obtain ⟨u,hu⟩ := ih hv
      rw [listed_cons,listed_cons]
      exact ⟨u,(hu.append_left _).trans List.perm_middle⟩

theorem erase_none (key : ObjKey δ) (h : eraseName key ws = none) : key ∉ keys (listed ws) := by
  induction ws with
  | nil => simp [keys]
  | cons w ws ih =>
    simp only [eraseName] at h
    split at h
    · split at h <;> cases h
    · rename_i hw
      intro hc
      simp only [keys,listed_cons,List.map_append,List.mem_append] at hc
      rcases hc with hc | hc
      · obtain ⟨obj,ho,rfl⟩ := List.mem_map.mp hc
        obtain ⟨hd,ht,hn,-⟩ := mem_entries ho
        exact hw ⟨hd.symm,ht.symm,hn⟩
      · exact ih (Option.map_eq_none_iff.mp h) hc

/-- Externally triggered items have one name each. -/
def Single (ws : List (WorkItem δ)) : Prop := ∀ w ∈ ws, ∃ n, w.name = [n]

theorem trig_listed (key : ObjKey δ) (hs : Single ws) (h : eraseTrig key ws = some ws') :
    Single ws' ∧ ∃ u, (listed ws).Perm (⟨key,u⟩ :: listed ws') := by
  induction ws generalizing ws' with
  | nil => cases h
  | cons w ws ih =>
    have hs' : Single ws := fun v hv => hs v (List.mem_cons_of_mem _ hv)
    simp only [eraseTrig] at h
    split at h
    · rename_i hw
      obtain ⟨hd,ht,hn⟩ := hw
      cases h
      obtain ⟨n,hname⟩ := hs w List.mem_cons_self
      rw [hname,List.head?_cons,Option.some.injEq] at hn
      have he : entries w = [⟨key,w.update⟩] := by simp [entries,hname,hd,ht,hn]
      exact ⟨hs',w.update,by rw [listed_cons,he]; rfl⟩
    · obtain ⟨vs,hv,rfl⟩ := Option.map_eq_some_iff.mp h
      obtain ⟨hsv,u,hu⟩ := ih hs' hv
      refine ⟨?_,u,?_⟩
      · intro v hm
        rcases List.mem_cons.mp hm with rfl | hm
        · exact hs v List.mem_cons_self
        · exact hsv v hm
      · rw [listed_cons,listed_cons]
        exact (hu.append_left _).trans List.perm_middle

theorem trig_none (key : ObjKey δ) (hs : Single ws) (h : eraseTrig key ws = none) :
    key ∉ keys (listed ws) := by
  induction ws with
  | nil => simp [keys]
  | cons w ws ih =>
    simp only [eraseTrig] at h
    split at h
    · cases h
    · rename_i hw
      intro hc
      simp only [keys,listed_cons,List.map_append,List.mem_append] at hc
      rcases hc with hc | hc
      · obtain ⟨obj,ho,rfl⟩ := List.mem_map.mp hc
        obtain ⟨hd,ht,hn,-⟩ := mem_entries ho
        obtain ⟨n,hname⟩ := hs w List.mem_cons_self
        rw [hname,List.mem_singleton] at hn
        exact hw ⟨hd.symm,ht.symm,by rw [hname,hn]; rfl⟩
      · exact ih (fun v hv => hs v (List.mem_cons_of_mem _ hv)) (Option.map_eq_none_iff.mp h) hc

theorem listed_filter_dev (dev : δ) (ws : List (WorkItem δ)) :
    listed (ws.filter (fun w => w.dev ≠ dev)) = (listed ws).filter (fun obj => obj.key.dev ≠ dev) := by
  induction ws with
  | nil => rfl
  | cons w ws ih =>
    have hw : (entries w).filter (fun obj => obj.key.dev ≠ dev) =
        if w.dev ≠ dev then entries w else [] := by
      split
      · rename_i hd
        rw [List.filter_eq_self]
        intro obj ho
        rw [(mem_entries ho).1]
        simpa using hd
      · rename_i hd
        rw [List.filter_eq_nil_iff]
        intro obj ho
        rw [(mem_entries ho).1]
        simpa using hd
    rw [listed_cons,List.filter_append,hw,← ih]
    by_cases hd : w.dev = dev
    · simp [hd]
    · simp [hd]

end Entries

section Scheduled
open Lib

variable {δ : Type}

def periodic (objs : List (PollObj δ)) : List (PollObj δ) := objs.filter (fun obj => obj.upd ≠ 0)

def triggered (objs : List (PollObj δ)) : List (PollObj δ) := objs.filter (fun obj => obj.upd = 0)

def moved (s : State δ) : List String := (s.autoUpd ++ s.remUpd).map Prod.snd

/-- Objects of the item being polled whose period has not been changed by this poll. -/
def kept (s : State δ) : List (PollObj δ) :=
  match s.inPoll with
  | none => []
  | some tmp => (entries tmp).filter (fun obj => obj.key.name ∉ moved s)

/-- Objects to be entered with their new period when the poll ends. -/
def waiting (s : State δ) : List (PollObj δ) :=
  match s.inPoll with
  | none => []
  | some tmp => s.autoUpd.map (fun e => ⟨⟨tmp.dev,tmp.type,e.2⟩,e.1⟩)

/-- Objects that are in neither list while a poll is in progress. -/
def held (s : State δ) : List (PollObj δ) := kept s ++ waiting s

/-- Each object the devices list as polled is in one place, in the work list if it has a
period and with that period. -/
structure Inv (s : State δ) : Prop where
  nodup : (s.polled.map PollObj.key).Nodup
  works : (listed s.works ++ held s).Perm (periodic s.polled)
  ext : (listed s.extTrigWorks).Perm (triggered s.polled)
  single : Single s.extTrigWorks
  updated : ∀ w ∈ s.works, w.update ≠ 0
  polling : ∀ tmp, s.inPoll = some tmp → tmp.update ≠ 0
  idle : s.inPoll = none → s.autoUpd = [] ∧ s.remUpd = []

theorem inv_empty : Inv ({} : State δ) where
  nodup := List.nodup_nil
  works := List.Perm.refl _
  ext := List.Perm.refl _
  single := by intro w hw; cases hw
  updated := by intro w hw; cases hw
  polling := by intro tmp h; cases h
  idle := fun _ => ⟨rfl,rfl⟩

/-- When a step does what it should, by the state it starts from. -/
def Clean (s : State δ) : Action δ → Prop
  | .upd key upd =>
    key ∈ keys (listed s.works) ∨ upd ≠ 0 ∧
      (key ∈ keys (kept s) ∨ s.works = [] ∧ key ∈ keys (listed s.extTrigWorks))
  | .rem key => key ∉ keys (held s)
  | .endPoll => s.autoUpd = [] ∨ s.remUpd = []
  | _ => True

theorem periodic_triggered (objs : List (PollObj δ)) :
    (periodic objs ++ triggered objs).Perm objs := by
  have h := List.filter_append_perm (fun obj : PollObj δ => decide (obj.upd ≠ 0)) objs
  have ht : triggered objs = objs.filter (fun obj => !decide (obj.upd ≠ 0)) := by
    apply List.filter_congr
    intro obj _
    simp
  rw [ht]
  exact h

variable {s : State δ}

theorem Inv.all (h : Inv s) (hi : s.inPoll = none) :
    (listed s.works ++ listed s.extTrigWorks).Perm s.polled := by
  have hw := h.works
  have hheld : held s = [] := by simp [held,kept,waiting,hi]
  rw [hheld,List.append_nil] at hw
  exact (hw.append h.ext).trans (periodic_triggered s.polled)

theorem Inv.of_perm {s' : State δ} {P : List (PollObj δ)} (hp : s'.polled.Perm P)
    (hn : (P.map PollObj.key).Nodup) (hw : (listed s'.works ++ held s').Perm (periodic P))
    (he : (listed s'.extTrigWorks).Perm (triggered P)) (hs : Single s'.extTrigWorks)
    (hu : ∀ w ∈ s'.works, w.update ≠ 0) (ht : ∀ tmp, s'.inPoll = some tmp → tmp.update ≠ 0)
    (hi : s'.inPoll = none → s'.autoUpd = [] ∧ s'.remUpd = []) : Inv s' where
  nodup := (hp.map PollObj.key).nodup_iff.mpr hn
  works := hw.trans (hp.symm.filter _)
  ext := he.trans (hp.symm.filter _)
  single := hs
  updated := hu
  polling := ht
  idle := hi

variable [DecidableEq δ] {key : ObjKey δ} {objs rest : List (PollObj δ)}

/-- Every polled object once, in the list and with the period it should have, and nothing
else. -/
structure Scheduled (s : State δ) : Prop where
  once : ∀ obj ∈ s.polled,
    (keys (listed s.works ++ listed s.extTrigWorks)).count obj.key = 1
  periodic : ∀ obj ∈ s.polled, obj.key ∈ keys (listed s.works) ↔ obj.upd ≠ 0
  period : ∀ obj ∈ s.polled, obj.upd ≠ 0 → obj ∈ listed s.works
  removed : ∀ key ∈ keys (listed s.works ++ listed s.extTrigWorks), key ∈ keys s.polled

theorem Inv.scheduled (h : Inv s) (hi : s.inPoll = none) : Scheduled s := by
  have hall := h.all hi
  have hw := h.works
  have hheld : held s = [] := by simp [held,kept,waiting,hi]
  rw [hheld,List.append_nil] at hw
  have hmem : ∀ obj ∈ s.polled, obj.upd ≠ 0 → obj ∈ listed s.works := by
    intro obj ho hu
    exact hw.mem_iff.mpr (List.mem_filter.mpr ⟨ho,by simpa using hu⟩)
  refine ⟨?_,?_,hmem,?_⟩
  · intro obj ho
    rw [keys,(hall.map PollObj.key).count_eq]
    exact List.count_eq_one_of_mem h.nodup (List.mem_map_of_mem ho)
  · intro obj ho
    constructor
    · intro hk
      obtain ⟨o,hl,he⟩ := List.mem_map.mp hk
      obtain ⟨hp,hu⟩ := List.mem_filter.mp (hw.mem_iff.mp hl)
      rw [← List.inj_on_of_nodup_map h.nodup hp ho he]
      simpa using hu
    · exact fun hu => List.mem_map_of_mem (hmem obj ho hu)
  · intro key hk
    exact (hall.map PollObj.key).mem_iff.mp hk

/-- What the other objects are once one of the work list has been taken out. -/
theorem Inv.drop_works (h : Inv s) (hw : (listed s.works ++ held s).Perm (⟨key,u⟩ :: rest)) :
    u ≠ 0 ∧ s.polled.Perm (⟨key,u⟩ :: without PollObj.key key s.polled) ∧
      rest.Perm (periodic (without PollObj.key key s.polled)) ∧
      (listed s.extTrigWorks).Perm (triggered (without PollObj.key key s.polled)) := by
  have hmem := List.mem_filter.mp (h.works.mem_iff.mp (hw.mem_iff.mpr List.mem_cons_self))
  have hu : u ≠ 0 := by simpa using hmem.2
  have hp := perm_without h.nodup hmem.1
  refine ⟨hu,hp,?_,?_⟩
  · have := (hw.symm.trans h.works).trans (hp.filter _)
    simpa [periodic,hu] using this
  · have := h.ext.trans (hp.filter _)
    simpa [triggered,hu] using this

theorem Inv.drop_ext (h : Inv s) (he : (listed s.extTrigWorks).Perm (⟨key,u⟩ :: rest)) :
    s.polled.Perm (⟨key,0⟩ :: without PollObj.key key s.polled) ∧
      (listed s.works ++ held s).Perm (periodic (without PollObj.key key s.polled)) ∧
      rest.Perm (triggered (without PollObj.key key s.polled)) := by
  have hmem := List.mem_filter.mp (h.ext.mem_iff.mp (he.mem_iff.mpr List.mem_cons_self))
  obtain rfl : u = 0 := by simpa using hmem.2
  have hp := perm_without h.nodup hmem.1
  refine ⟨hp,?_,?_⟩
  · have := h.works.trans (hp.filter _)
    simpa [periodic] using this
  · have := (he.symm.trans h.ext).trans (hp.filter _)
    simpa [triggered] using this

theorem update_polled (hn : (objs.map PollObj.key).Nodup) (hm : (⟨key,u⟩ : PollObj δ) ∈ objs)
    (upd : Nat) :
    (objs.map (setUpd key upd)).Perm (⟨key,upd⟩ :: without PollObj.key key objs) := by
  have hset : objs.map (setUpd key upd) =
      objs.map (fun b => if b.key = key then ⟨key,upd⟩ else b) := by
    apply List.map_congr_left
    intro b _
    unfold setUpd
    split
    · rename_i hb
      rw [← hb]
    · rfl
  rw [hset]
  exact perm_exchange hn hm ⟨key,upd⟩

theorem nodup_cons_without (hn : (objs.map PollObj.key).Nodup) (key : ObjKey δ) (upd : Nat) :
    ((⟨key,upd⟩ :: without PollObj.key key objs).map PollObj.key).Nodup :=
  List.nodup_cons.mpr ⟨not_mem_without key objs,nodup_without key hn⟩

end Scheduled

end CppTango.Polling.PollThread
