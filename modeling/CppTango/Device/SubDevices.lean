import CppTango.Device.MultiAttribute
import CppTango.Lib.Keyed
import CppTango.Lib.Steps
import Mathlib.Data.Char
import Mathlib.Data.List.Lex
import Mathlib.Data.List.Perm.Subperm
import Mathlib.Data.List.Sort
import Mathlib.Logic.Function.Basic

namespace CppTango.Device.SubDevices

section Model

def lower (name : String) : String := String.ofList (lowerName name)

structure SubDeviceList where
  devName : String
  modified : Bool
  subDevices : List String
deriving DecidableEq, Repr

/-- The diagnosis object, and the `__SubDevices` properties in the database (by device name, none
when empty). `admName` is the name of the admin device in lower case. -/
structure SubDevDiag where
  admName : String
  subDeviceMap : List SubDeviceList
  subDeviceStartupMap : String → List String
  db : String → List String

/-- `std::map::insert`: the lists are in the order of the device names. -/
def insertDevice (e : SubDeviceList) (l : List SubDeviceList) : List SubDeviceList :=
  l.orderedInsert (fun a b => a.devName.toList ≤ b.devName.toList) e

def registerSubDevice (devName subDevName : String) (s : SubDevDiag) : SubDevDiag :=
  let devName := lower devName
  let subDevName := lower subDevName
  match s.subDeviceMap.find? (·.devName == devName) with
  | none => { s with subDeviceMap := insertDevice ⟨devName,true,[subDevName]⟩ s.subDeviceMap }
  | some e =>
    if e.subDevices.contains subDevName then s
    else
      { s with
        subDeviceMap := Lib.updateFirst (·.devName == devName)
          (fun e => { e with subDevices := e.subDevices ++ [subDevName], modified := true })
          s.subDeviceMap }

def removeSubDevices (devName : String) (s : SubDevDiag) : SubDevDiag :=
  { s with subDeviceMap := s.subDeviceMap.eraseP (·.devName == lower devName) }

/-- The comparison with the list read at start-up. -/
def isEqual (subDevices startup : List String) : Bool :=
  subDevices.length == startup.length && subDevices.all startup.contains

/-- The device whose property holds a list. -/
def ownerOf (admName devName : String) : String := if devName = "" then admName else devName

/-- One turn of the loop of `store_sub_devices`. -/
def storeOne (s : SubDevDiag) (fails : String → Bool) (e : SubDeviceList)
    (db : String → List String) : SubDeviceList × (String → List String) :=
  if e.modified then
    if isEqual e.subDevices (s.subDeviceStartupMap e.devName) then ({ e with modified := false },db)
    else if fails e.devName then (e,db)
    else
      ({ e with modified := false },
        Function.update db (ownerOf s.admName e.devName) e.subDevices)
  else (e,db)

def storeLoop (s : SubDevDiag) (fails : String → Bool) :
    List SubDeviceList → (String → List String) → List SubDeviceList × (String → List String)
  | [],db => ([],db)
  | e :: es,db =>
    let r := storeOne s fails e db
    let rest := storeLoop s fails es r.2
    (r.1 :: rest.1,rest.2)

/-- `fails` are the devices whose property cannot be written now. -/
def storeSubDevices (fails : String → Bool) (s : SubDevDiag) : SubDevDiag :=
  let r := storeLoop s fails s.subDeviceMap s.db
  { s with subDeviceMap := r.1, db := r.2 }

/-- The loop of `get_sub_devices_from_cache` over the devices of the server. -/
def startupMap (admName : String) (db : String → List String) (devices : List String) :
    String → List String :=
  devices.foldl
    (fun m dev =>
      let key := if lower dev = admName then "" else lower dev
      if 0 < (db (lower dev)).length then Function.update m key (m key ++ db (lower dev)) else m)
    (fun _ => [])

def start (admName : String) (db : String → List String) (devices : List String) : SubDevDiag :=
  ⟨admName,[],startupMap admName db devices,db⟩

inductive Op
  | register (devName subDevName : String)
  | remove (devName : String)
  | store (fails : String → Bool)

def step (s : SubDevDiag) : Op → SubDevDiag
  | .register devName subDevName => registerSubDevice devName subDevName s
  | .remove devName => removeSubDevices devName s
  | .store fails => storeSubDevices fails s

def run (s : SubDevDiag) (ops : List Op) : SubDevDiag := ops.foldl step s

end Model

section Claim

/-- The database has the names of a list, each once. -/
def Holds (admName : String) (db : String → List String) (e : SubDeviceList) : Prop :=
  (db (ownerOf admName e.devName)).Perm e.subDevices ∧ e.subDevices.Nodup

/-- A list that a store does not write: it has not changed, or it looks like the one of the
start-up. -/
def Skipped (s : SubDevDiag) (e : SubDeviceList) : Bool :=
  !e.modified || isEqual e.subDevices (s.subDeviceStartupMap e.devName)

/-- A write of a store fails. -/
def WriteFails (s : SubDevDiag) (fails : String → Bool) : Bool :=
  s.subDeviceMap.any (fun e => !Skipped s e && fails e.devName)

/-- What a store finds: where it skips a modified list the database still has the list of the
start-up, and lists kept in one property have the same names. -/
def Current (s : SubDevDiag) : Op → Prop
  | .store _ =>
    (∀ e ∈ s.subDeviceMap, e.modified = true →
      isEqual e.subDevices (s.subDeviceStartupMap e.devName) = true →
      (s.db (ownerOf s.admName e.devName)).Perm (s.subDeviceStartupMap e.devName)) ∧
    ∀ e ∈ s.subDeviceMap, ∀ e' ∈ s.subDeviceMap,
      ownerOf s.admName e.devName = ownerOf s.admName e'.devName →
      e.subDevices.Perm e'.subDevices
  | _ => True

instance (s : SubDevDiag) : (op : Op) → Decidable (Current s op)
  | .store _ => inferInstanceAs (Decidable (_ ∧ _))
  | .register _ _ | .remove _ => .isTrue trivial

end Claim

section Lists
variable {s : SubDevDiag}

/-- A list without repetitions that is as long as the start-up list and has no other names is that
list in some order. -/
theorem perm_of_isEqual {l startup : List String} (hn : l.Nodup) (h : isEqual l startup = true) :
    startup.Perm l := by
  unfold isEqual at h
  obtain ⟨hlen,hall⟩ := Bool.and_eq_true_iff.mp h
  have hsub : l ⊆ startup := by
    intro x hx
    exact List.contains_iff_mem.mp (List.all_eq_true.mp hall x hx)
  apply List.Perm.symm
  apply (List.subperm_of_subset hn hsub).perm_of_length_le
  rw [beq_iff_eq.mp hlen]

structure Inv (s : SubDevDiag) : Prop where
  once : ∀ e ∈ s.subDeviceMap, e.subDevices.Nodup
  stored : ∀ e ∈ s.subDeviceMap, e.modified = false → Holds s.admName s.db e

theorem inv_start (admName : String) (db : String → List String) (devices : List String) :
    Inv (start admName db devices) where
  once e he := by cases he
  stored e he := by cases he

theorem inv_registerSubDevice (h : Inv s) (devName subDevName : String) :
    Inv (registerSubDevice devName subDevName s) := by
  unfold registerSubDevice
  dsimp only
  cases hf : s.subDeviceMap.find? (·.devName == lower devName) with
  | none =>
    constructor
    · intro e he
      rcases (List.mem_orderedInsert _).mp he with rfl | he
      · exact List.nodup_singleton _
      · exact h.once e he
    · intro e he hm
      rcases (List.mem_orderedInsert _).mp he with rfl | he
      · cases hm
      · exact h.stored e he hm
  | some found =>
    dsimp only
    split
    next => exact h
    next hnew =>
      constructor
      · intro e he
        rcases Lib.mem_updateFirst_found he with he | ⟨a,ha,rfl⟩
        · exact h.once e he
        · rw [hf] at ha
          cases ha
          have hn := h.once found (List.mem_of_find?_eq_some hf)
          apply List.nodup_append.mpr
          refine ⟨hn,List.nodup_singleton _,?_⟩
          intro x hx y hy he
          rw [he,List.mem_singleton.mp hy] at hx
          exact hnew (List.contains_iff_mem.mpr hx)
      · intro e he hm
        rcases Lib.mem_updateFirst_found he with he | ⟨a,ha,rfl⟩
        · exact h.stored e he hm
        · cases hm

theorem inv_removeSubDevices (h : Inv s) (devName : String) : Inv (removeSubDevices devName s) where
  once e he := h.once e (List.mem_of_mem_eraseP he)
  stored e he := h.stored e (List.mem_of_mem_eraseP he)

end Lists

section Store
variable {s : SubDevDiag} {fails : String → Bool}

theorem storeOne_eq (e : SubDeviceList) (db : String → List String) :
    storeOne s fails e db =
      ({ e with modified := !Skipped s e && fails e.devName },
        if Skipped s e || fails e.devName then db
        else Function.update db (ownerOf s.admName e.devName) e.subDevices) := by
  obtain ⟨devName,modified,subDevices⟩ := e
  unfold storeOne Skipped
  dsimp only
  cases modified with
  | false => rfl
  | true =>
    cases isEqual subDevices (s.subDeviceStartupMap devName) with
    | true => rfl
    | false => cases fails devName <;> rfl

theorem storeLoop_entries (es : List SubDeviceList) (db : String → List String) :
    (storeLoop s fails es db).1 =
      es.map (fun e => { e with modified := !Skipped s e && fails e.devName }) := by
  induction es generalizing db with
  | nil => rfl
  | cons e es ih =>
    rw [storeLoop,storeOne_eq]
    dsimp only
    rw [ih,List.map_cons]

/-- The lists of one property have the same names. -/
def Shared (s : SubDevDiag) (all : List SubDeviceList) : Prop :=
  ∀ e ∈ all, ∀ e' ∈ all, ownerOf s.admName e.devName = ownerOf s.admName e'.devName →
    e.subDevices.Perm e'.subDevices

theorem holds_update {all : List SubDeviceList} (hs : Shared s all) {e e' : SubDeviceList}
    (he : e ∈ all) (he' : e' ∈ all) {db : String → List String} (hn : e'.subDevices.Nodup)
    (h : ownerOf s.admName e'.devName ≠ ownerOf s.admName e.devName → Holds s.admName db e') :
    Holds s.admName (Function.update db (ownerOf s.admName e.devName) e.subDevices) e' := by
  unfold Holds
  by_cases ho : ownerOf s.admName e'.devName = ownerOf s.admName e.devName
  · rw [ho,Function.update_self]
    exact ⟨hs e he e' he' ho.symm,hn⟩
  · rw [Function.update_of_ne ho]
    exact h ho

/-- The loop keeps what is right in the database, and writes what is not. -/
theorem storeLoop_holds {all es : List SubDeviceList} (hs : Shared s all)
    (hn : ∀ e ∈ all, e.subDevices.Nodup) (hes : es ⊆ all) (db : String → List String)
    {e : SubDeviceList} (he : e ∈ all)
    (h : (e ∈ es ∧ Skipped s e = false ∧ fails e.devName = false) ∨ Holds s.admName db e) :
    Holds s.admName (storeLoop s fails es db).2 e := by
  induction es generalizing db with
  | nil =>
    rcases h with ⟨hm,-⟩ | h
    · cases hm
    · exact h
  | cons x es ih =>
    rw [storeLoop,storeOne_eq]
    dsimp only
    have hx : x ∈ all := hes List.mem_cons_self
    apply ih (fun y hy => hes (List.mem_cons_of_mem _ hy))
    by_cases hw : (Skipped s x || fails x.devName) = true
    · rw [if_pos hw]
      refine h.imp_left ?_
      rintro ⟨hm,hsk,hf⟩
      refine ⟨?_,hsk,hf⟩
      rcases List.mem_cons.mp hm with rfl | hm
      · rw [hsk,hf] at hw
        cases hw
      · exact hm
    · rw [if_neg hw]
      rcases h with ⟨hm,hsk,hf⟩ | h
      · rcases List.mem_cons.mp hm with rfl | hm
        · exact .inr (holds_update hs hx he (hn e he) (fun ho => absurd rfl ho))
        · exact .inl ⟨hm,hsk,hf⟩
      · exact .inr (holds_update hs hx he (hn e he) (fun _ => h))

theorem holds_of_skipped (h : Inv s) (hc : Current s (.store fails)) {e : SubDeviceList}
    (he : e ∈ s.subDeviceMap) (hs : Skipped s e = true) : Holds s.admName s.db e := by
  unfold Skipped at hs
  cases hm : e.modified with
  | false => exact h.stored e he hm
  | true =>
    rw [hm] at hs
    have heq : isEqual e.subDevices (s.subDeviceStartupMap e.devName) = true := hs
    exact ⟨(hc.1 e he hm heq).trans (perm_of_isEqual (h.once e he) heq),h.once e he⟩

theorem holds_storeSubDevices (h : Inv s) (hc : Current s (.store fails)) {e : SubDeviceList}
    (he : e ∈ s.subDeviceMap) (hw : Skipped s e = true ∨ fails e.devName = false) :
    Holds s.admName (storeSubDevices fails s).db e := by
  apply storeLoop_holds hc.2 h.once (fun _ hx => hx) s.db he
  cases hs : Skipped s e with
  | true => exact .inr (holds_of_skipped h hc he hs)
  | false =>
    refine .inl ⟨he,rfl,?_⟩
    rcases hw with hw | hw
    · rw [hs] at hw
      cases hw
    · exact hw

theorem inv_storeSubDevices (h : Inv s) (hc : Current s (.store fails)) :
    Inv (storeSubDevices fails s) := by
  have hmap : (storeSubDevices fails s).subDeviceMap =
      s.subDeviceMap.map (fun e => { e with modified := !Skipped s e && fails e.devName }) :=
    storeLoop_entries s.subDeviceMap s.db
  constructor
  · intro e he
    rw [hmap] at he
    obtain ⟨x,hx,rfl⟩ := List.mem_map.mp he
    exact h.once x hx
  · intro e he hm
    rw [hmap] at he
    obtain ⟨x,hx,rfl⟩ := List.mem_map.mp he
    apply holds_storeSubDevices h hc hx
    cases hs : Skipped s x with
    | true => exact .inl rfl
    | false =>
      rw [hs] at hm
      exact .inr hm

theorem inv_step (h : Inv s) (op : Op) (hc : Current s op) : Inv (step s op) := by
  cases op with
  | register devName subDevName => exact inv_registerSubDevice h devName subDevName
  | remove devName => exact inv_removeSubDevices h devName
  | store fails => exact inv_storeSubDevices h hc

theorem inv_run (ops : List Op) (h : Inv s) (hr : Lib.Along step Current s ops) :
    Inv (run s ops) := by
  apply Lib.along_inv ?_ h hr
  intro s op hs hc
  exact inv_step hs op hc

theorem admName_step (op : Op) : (step s op).admName = s.admName := by
  cases op with
  | register devName subDevName =>
    change (registerSubDevice devName subDevName s).admName = _
    unfold registerSubDevice
    dsimp only
    split
    · rfl
    · split <;> rfl
  | remove devName => rfl
  | store fails => rfl

theorem admName_run (ops : List Op) : (run s ops).admName = s.admName := by
  induction ops generalizing s with
  | nil => rfl
  | cons op ops ih => exact ih.trans (admName_step op)

/-- After every store in which no write fails the database has the lists of the map. -/
theorem sub_devices_stored (admName : String) (db : String → List String) (devices : List String)
    (ops : List Op) (fails : String → Bool)
    (h : Lib.Along step Current (start admName db devices) (ops ++ [.store fails]))
    (hf : WriteFails (run (start admName db devices) ops) fails = false) :
    ∀ e ∈ (run (start admName db devices) (ops ++ [.store fails])).subDeviceMap,
      Holds admName (run (start admName db devices) (ops ++ [.store fails])).db e := by
  obtain ⟨hr,hc,-⟩ := Lib.along_append.mp h
  change Current (run (start admName db devices) ops) _ at hc
  have hinv := inv_run ops (inv_start admName db devices) hr
  have hadm : (run (start admName db devices) ops).admName = admName := admName_run ops
  have hrun : run (start admName db devices) (ops ++ [.store fails]) =
      storeSubDevices fails (run (start admName db devices) ops) := by
    unfold run
    rw [List.foldl_append]
    rfl
  rw [hrun]
  generalize run (start admName db devices) ops = s at hf hinv hadm hc
  intro e he
  have hmap : (storeSubDevices fails s).subDeviceMap =
      s.subDeviceMap.map (fun e => { e with modified := !Skipped s e && fails e.devName }) :=
    storeLoop_entries s.subDeviceMap s.db
  have hstored := (inv_storeSubDevices hinv hc).stored e he
  change _ → Holds s.admName _ e at hstored
  rw [hadm] at hstored
  apply hstored
  rw [hmap] at he
  obtain ⟨x,hx,rfl⟩ := List.mem_map.mp he
  exact Bool.not_eq_true _ ▸ List.any_eq_false.mp hf x hx

/-- A server with one device that used one sub-device before. -/
def oneAxis : SubDevDiag :=
  start "dserver/motor/1" (fun dev => if dev = "sys/motor/1" then ["sys/axis/1"] else [])
    ["sys/motor/1"]

def twoAxes : List Op :=
  [.register "sys/motor/1" "sys/axis/1",.register "sys/motor/1" "sys/axis/2"]

/-- The device is restarted, and uses its first sub-device only. -/
def oneAgain : List Op :=
  twoAxes ++ [.store (fun _ => false),.remove "sys/motor/1",.register "sys/motor/1" "sys/axis/1"]

theorem sub_devices_two_axes :
    (run oneAxis (twoAxes ++ [.store (fun _ => false)])).db "sys/motor/1" =
      ["sys/axis/1","sys/axis/2"] ∧
    ∀ e ∈ (run oneAxis (twoAxes ++ [.store (fun _ => false)])).subDeviceMap,
      Holds "dserver/motor/1" (run oneAxis (twoAxes ++ [.store (fun _ => false)])).db e :=
  ⟨by decide,sub_devices_stored "dserver/motor/1" _ ["sys/motor/1"] _ _ (by decide) (by decide)⟩

/-- The list is the one of the start-up, but no longer the one of the database. -/
theorem old_list_not_stored :
    WriteFails (run oneAxis oneAgain) (fun _ => false) = false ∧
    ¬ ∀ e ∈ (run oneAxis (oneAgain ++ [.store (fun _ => false)])).subDeviceMap,
      Holds "dserver/motor/1" (run oneAxis (oneAgain ++ [.store (fun _ => false)])).db e := by
  refine ⟨by decide,?_⟩
  intro h
  have hp := (h ⟨"sys/motor/1",false,["sys/axis/1"]⟩ (by decide)).1
  exact absurd hp.length_eq (by decide)

end Store

end CppTango.Device.SubDevices
