import CppTango.Device.ReadDevice

namespace CppTango.Device.Read

open CppTango.Lib

variable {α : Type} (dev : DeviceImpl α) (idl : Nat)

/-- The result of one name on its own. -/
def ownAnswer (source : DevSource) (held : Nat → Reading α) (name : String) : AttributeValue α :=
  match source with
  | .dev => deviceAnswer dev idl held name
  | .cache => cacheAnswer dev idl name
  | .cacheDevice =>
    if secondTryFor (cacheAnswer dev idl name).errList = true then deviceAnswer dev idl held name
    else cacheAnswer dev idl name

/-- The names the device is asked for, with their places in the call. -/
def asked (source : DevSource) (names : List String) : List (String × Nat) :=
  match source with
  | .dev => names.zipIdx
  | .cache => []
  | .cacheDevice => names.zipIdx.filter (fun n => secondTryFor (cacheAnswer dev idl n.1).errList)

/-- The call has one element for every name, its own result, unless a hook of the device fails
and the call with it. -/
def AnswersEach (source : DevSource) (held : Nat → Reading α) (names : List String) : Prop :=
  match readAttributes dev idl source held names with
  | .ok reply => reply = (realNames dev names).map (ownAnswer dev idl source held)
  | .error e => hookErrors dev ((asked dev idl source (realNames dev names)).map Prod.fst).zipIdx = some e

/-- If the computation of the state or the status fails, it has errors, and no name before it
was answered from the cache. -/
def NoneBefore {β : Type} (res : Except DevErrorList β) (text : String) (source : DevSource)
    (names : List String) : Prop :=
  ∀ n ∈ asked dev idl source names, lowerName n.1 = text.toList → ∀ e, res = .error e →
    e ≠ [] ∧ ∀ m ∈ names.zipIdx, m.2 < n.2 → m ∈ asked dev idl source names

section Places
variable {dev idl} {names : List String}

theorem range_map_eq {f : Nat → AttributeValue α} {g : String → AttributeValue α} :
    (List.range names.length).map f = names.map g ↔ ∀ n ∈ names.zipIdx, f n.2 = g n.1 := by
  constructor
  · intro h n hn
    have hi := List.mem_zipIdx_iff_getElem?.mp hn
    obtain ⟨hlt,-⟩ := List.getElem?_eq_some_iff.mp hi
    have hat := congrArg (fun l => l[n.2]?) h
    simp only [List.getElem?_map,hi,List.getElem?_range hlt,Option.map_some,Option.some.injEq] at hat
    exact hat
  · intro h
    apply List.ext_getElem?
    intro i
    rw [List.getElem?_map,List.getElem?_map]
    by_cases hi : i < names.length
    · have hn : (names[i],i) ∈ names.zipIdx :=
        List.mem_zipIdx_iff_getElem?.mpr (List.getElem?_eq_getElem hi)
      rw [List.getElem?_range hi,List.getElem?_eq_getElem hi]
      simp only [Option.map_some,h _ hn]
    · rw [List.getElem?_eq_none (by simpa using hi),List.getElem?_eq_none (by simpa using hi)]
      rfl

theorem mem_take_zipIdx {m : String × Nat} {i : Nat} :
    m ∈ names.zipIdx.take i ↔ m ∈ names.zipIdx ∧ m.2 < i := by
  rw [List.mem_take_iff_getElem]
  constructor
  · rintro ⟨j,hj,rfl⟩
    refine ⟨List.getElem_mem _,?_⟩
    rw [List.getElem_zipIdx]
    simp only [Nat.zero_add]
    exact Nat.lt_of_lt_of_le hj (Nat.min_le_left _ _)
  · rintro ⟨hm,hi⟩
    have hat := List.mem_zipIdx_iff_getElem?.mp hm
    obtain ⟨hlt,he⟩ := List.getElem?_eq_some_iff.mp hat
    refine ⟨m.2,Nat.lt_min.mpr ⟨hi,by rw [List.length_zipIdx]; exact hlt⟩,?_⟩
    rw [List.getElem_zipIdx,he,Nat.zero_add]

variable {q : String × Nat → Bool}

/-- Names picked from a call, each with its place, as the second try sees them. -/
theorem mem_picked {n : String × Nat} :
    n ∈ ((names.zipIdx.filter q).map Prod.fst).zipIdx ↔
      (names.zipIdx.filter q)[n.2]? = some (n.1,index true ((names.zipIdx.filter q).map Prod.snd) n.2) := by
  rw [List.mem_zipIdx_iff_getElem?,List.getElem?_map]
  cases h : (names.zipIdx.filter q)[n.2]? with
  | none => simp
  | some m =>
    have hi : index true ((names.zipIdx.filter q).map Prod.snd) n.2 = m.2 := by
      simp [index,List.getD_eq_getElem?_getD,List.getElem?_map,h]
    rw [hi]
    simp only [Option.map_some,Option.some.injEq]
    exact ⟨fun he => he ▸ rfl,fun he => by rw [he]⟩

theorem picked_mem {n : String × Nat} (h : n ∈ ((names.zipIdx.filter q).map Prod.fst).zipIdx) :
    (n.1,index true ((names.zipIdx.filter q).map Prod.snd) n.2) ∈ names.zipIdx.filter q :=
  List.mem_of_getElem? (mem_picked.mp h)

theorem picked_of_mem {n : String × Nat} (h : n ∈ names.zipIdx.filter q) :
    ∃ k, (n.1,k) ∈ ((names.zipIdx.filter q).map Prod.fst).zipIdx ∧
      index true ((names.zipIdx.filter q).map Prod.snd) k = n.2 := by
  obtain ⟨k,hk⟩ := List.mem_iff_getElem?.mp h
  have hi : index true ((names.zipIdx.filter q).map Prod.snd) k = n.2 := by
    simp [index,List.getD_eq_getElem?_getD,List.getElem?_map,hk]
  refine ⟨k,mem_picked.mpr ?_,hi⟩
  rw [hk,hi]

theorem picked_spread :
    Spread (index true ((names.zipIdx.filter q).map Prod.snd)) ((names.zipIdx.filter q).map Prod.fst) := by
  intro n hn m hm he
  have h1 := mem_picked.mp hn
  have h2 := mem_picked.mp hm
  have hz := List.filter_sublist.subset (List.mem_of_getElem? h1)
  have hz' := List.filter_sublist.subset (List.mem_of_getElem? h2)
  have hnm := place_inj hz hz' he
  obtain ⟨hlt,-⟩ := List.getElem?_eq_some_iff.mp h1
  rw [hnm,← h2] at h1
  have hk := (List.getElem?_inj hlt ((zipIdx_nodup names).filter q)).mp h1
  exact Prod.ext (Prod.ext_iff.mp hnm).1 hk

/-- A name stands where it stood in the call when all before it were picked too. -/
theorem picked_place {n : String × Nat} (h : n ∈ ((names.zipIdx.filter q).map Prod.fst).zipIdx) :
    index true ((names.zipIdx.filter q).map Prod.snd) n.2 = n.2 ↔
      ∀ m ∈ names.zipIdx, m.2 < index true ((names.zipIdx.filter q).map Prod.snd) n.2 →
        m ∈ names.zipIdx.filter q := by
  have hk := mem_picked.mp h
  have hz := List.mem_zipIdx_iff_getElem?.mp (List.filter_sublist.subset (List.mem_of_getElem? hk))
  have hi : names.zipIdx[index true ((names.zipIdx.filter q).map Prod.snd) n.2]? =
      some (n.1,index true ((names.zipIdx.filter q).map Prod.snd) n.2) := by
    simp only [] at hz
    rw [List.getElem?_zipIdx,hz]
    simp
  rw [eq_comm,filter_place (zipIdx_nodup names) hi hk]
  constructor
  · intro hall m hm hlt
    exact List.mem_filter.mpr ⟨hm,hall m (mem_take_zipIdx.mpr ⟨hm,hlt⟩)⟩
  · intro hall m hm
    obtain ⟨hm,hlt⟩ := mem_take_zipIdx.mp hm
    exact (List.mem_filter.mp (hall m hm hlt)).2

end Places

section Sources
variable {dev idl} {held : Nat → Reading α} {names : List String}

theorem noExcept_hook {e : DevErrorList} (hh : hookErrors dev names.zipIdx = some e) (secondTry : Bool)
    (idx : List Nat) (r : Run α) :
    readAttributesNoExcept dev idl names secondTry idx r = .error e := by
  unfold readAttributesNoExcept
  simp only [hh]

/-- The device asked for all the names. -/
theorem fresh_dev (hd : (names.map lowerName).Nodup) :
    Fresh names (index false []) (⟨fun _ => .blank,held⟩ : Run α) :=
  ⟨fun _ hn _ hm he => place_inj hn hm he,hd,fun _ _ => rfl,fun _ _ => rfl⟩

theorem in_place_dev : BothInPlace dev names (index false []) ↔
    NoneBefore dev idl dev.devState "state" .dev names ∧
      NoneBefore dev idl dev.devStatus "status" .dev names := by
  constructor
  · intro h
    exact ⟨fun n hn hl e he => ⟨(h.state n hn (wanted_of_state hl) e he).1,fun m hm _ => hm⟩,
      fun n hn hl e he => ⟨(h.status n hn (wanted_of_status hl) e he).1,fun m hm _ => hm⟩⟩
  · rintro ⟨h1,h2⟩
    exact ⟨fun n hn hw e he => ⟨(h1 n hn (wanted_state hw) e he).1,rfl⟩,
      fun n hn hw e he => ⟨(h2 n hn (wanted_status hw) e he).1,rfl⟩⟩

theorem answers_dev (hd : (names.map lowerName).Nodup)
    (hh : hookErrors dev names.zipIdx = none) :
    (∃ r', readAttributesNoExcept dev idl names false [] ⟨fun _ => .blank,held⟩ = .ok r' ∧
      (List.range names.length).map r'.reply = names.map (deviceAnswer dev idl held)) ↔
      BothInPlace dev names (index false []) := by
  constructor
  · rintro ⟨r',hr,ha⟩
    rw [noExcept_eq hh] at hr
    exact in_place_of_answers (fresh_dev hd) hr (range_map_eq.mp ha)
  · intro hp
    obtain ⟨r',hr,ha,-⟩ := device_answers hh (fresh_dev hd) hp
    exact ⟨r',hr,range_map_eq.mpr ha⟩

theorem answers_cache (names : List String) :
    (List.range names.length).map (readAttributesFromCache dev idl names (fun _ => .blank)) =
      names.map (cacheAnswer dev idl) :=
  range_map_eq.mpr (fun _ hn => cache_answers hn)

variable (dev idl) in
/-- The reply as the device finds it in the second try. -/
def cleared (names : List String) : Nat → AttributeValue α :=
  (asked dev idl .cacheDevice names).foldl clearErrors
    (readAttributesFromCache dev idl names (fun _ => .blank))

theorem asked_eq (names : List String) :
    names.zipIdx.filter (fun n => secondTryFor
      (readAttributesFromCache dev idl names (fun _ => .blank) n.2).errList) =
      asked dev idl .cacheDevice names := by
  apply List.filter_congr
  intro n hn
  rw [cache_answers hn]

theorem clearErrors_eq (r : Nat → AttributeValue α) (n : String × Nat) :
    clearErrors r n = put r n.2 (fun back => { back with errList := [] }) := rfl

theorem cleared_asked {n : String × Nat} (hn : n ∈ asked dev idl .cacheDevice names) :
    cleared dev idl names n.2 = { cacheAnswer dev idl n.1 with errList := [] } := by
  have hz := List.filter_sublist.subset hn
  have hp : ((asked dev idl .cacheDevice names).map Prod.snd).Nodup := places_nodup List.filter_sublist
  rw [cleared,loop_eq_updSlots clearErrors_eq,updSlots_of_mem hp hn,cache_answers hz]

theorem cleared_other {n : String × Nat} (hz : n ∈ names.zipIdx)
    (hn : n ∉ asked dev idl .cacheDevice names) :
    cleared dev idl names n.2 = cacheAnswer dev idl n.1 := by
  rw [cleared,loop_eq_updSlots clearErrors_eq,updSlots_of_not_mem,cache_answers hz]
  intro hm
  obtain ⟨m,hm,he⟩ := List.mem_map.mp hm
  rw [place_inj (List.filter_sublist.subset hm) hz he] at hm
  exact hn hm

theorem second_try_value {e : DevErrorList} (h : secondTryFor e = true) : e ≠ [] := by
  intro he
  rw [he] at h
  cases h

theorem fresh_second (hd : (names.map lowerName).Nodup) :
    Fresh ((asked dev idl .cacheDevice names).map Prod.fst)
      (index true ((asked dev idl .cacheDevice names).map Prod.snd))
      (⟨cleared dev idl names,held⟩ : Run α) := by
  have hel : ∀ n ∈ ((asked dev idl .cacheDevice names).map Prod.fst).zipIdx,
      cleared dev idl names (index true ((asked dev idl .cacheDevice names).map Prod.snd) n.2) =
        { cacheAnswer dev idl n.1 with errList := [] } :=
    fun n hn => cleared_asked (picked_mem hn)
  refine ⟨picked_spread,?_,fun n hn => ?_,fun n hn => ?_⟩
  · have hsub : ((asked dev idl .cacheDevice names).map Prod.fst).Sublist names := by
      have h := (List.filter_sublist (l := names.zipIdx)
        (p := fun n => secondTryFor (cacheAnswer dev idl n.1).errList)).map Prod.fst
      rw [List.zipIdx_map_fst] at h
      exact h
    exact hd.sublist (hsub.map _)
  · simp only [hel n hn]
  · simp only [hel n hn]
    exact cacheAnswer_value _ (second_try_value (List.mem_filter.mp (picked_mem hn)).2)

theorem in_place_second : BothInPlace dev ((asked dev idl .cacheDevice names).map Prod.fst)
      (index true ((asked dev idl .cacheDevice names).map Prod.snd)) ↔
    NoneBefore dev idl dev.devState "state" .cacheDevice names ∧
      NoneBefore dev idl dev.devStatus "status" .cacheDevice names := by
  constructor
  · intro h
    refine ⟨fun n hn hl e he => ?_,fun n hn hl e he => ?_⟩
    · obtain ⟨k,hk,hi⟩ := picked_of_mem hn
      obtain ⟨hne,hs⟩ := h.state _ hk (wanted_of_state hl) e he
      exact ⟨hne,hi ▸ (picked_place hk).mp hs⟩
    · obtain ⟨k,hk,hi⟩ := picked_of_mem hn
      obtain ⟨hne,hs⟩ := h.status _ hk (wanted_of_status hl) e he
      exact ⟨hne,hi ▸ (picked_place hk).mp hs⟩
  · rintro ⟨h1,h2⟩
    refine ⟨fun n hn hw e he => ?_,fun n hn hw e he => ?_⟩
    · obtain ⟨hne,hs⟩ := h1 _ (picked_mem hn) (wanted_state hw) e he
      exact ⟨hne,(picked_place hn).mpr hs⟩
    · obtain ⟨hne,hs⟩ := h2 _ (picked_mem hn) (wanted_status hw) e he
      exact ⟨hne,(picked_place hn).mpr hs⟩

theorem own_asked {n : String × Nat} (hn : n ∈ asked dev idl .cacheDevice names) :
    ownAnswer dev idl .cacheDevice held n.1 = deviceAnswer dev idl held n.1 := by
  have h := (List.mem_filter.mp hn).2
  rw [ownAnswer,if_pos h]

theorem own_cached {n : String × Nat} (hz : n ∈ names.zipIdx)
    (hn : n ∉ asked dev idl .cacheDevice names) :
    ownAnswer dev idl .cacheDevice held n.1 = cacheAnswer dev idl n.1 := by
  rw [ownAnswer,if_neg]
  intro h
  exact hn (List.mem_filter.mpr ⟨hz,h⟩)

theorem answers_second (hd : (names.map lowerName).Nodup)
    (hh : hookErrors dev ((asked dev idl .cacheDevice names).map Prod.fst).zipIdx = none) :
    (∃ r', readAttributesNoExcept dev idl ((asked dev idl .cacheDevice names).map Prod.fst) true
        ((asked dev idl .cacheDevice names).map Prod.snd) ⟨cleared dev idl names,held⟩ = .ok r' ∧
      (List.range names.length).map r'.reply = names.map (ownAnswer dev idl .cacheDevice held)) ↔
      BothInPlace dev ((asked dev idl .cacheDevice names).map Prod.fst)
        (index true ((asked dev idl .cacheDevice names).map Prod.snd)) := by
  constructor
  · rintro ⟨r',hr,ha⟩
    rw [noExcept_eq hh] at hr
    refine in_place_of_answers (fresh_second hd) hr (fun n hn => ?_)
    have hm := picked_mem hn
    exact (range_map_eq.mp ha _ (List.filter_sublist.subset hm)).trans (own_asked hm)
  · intro hp
    obtain ⟨r',hr,ha,hout⟩ := device_answers hh (fresh_second hd) hp
    refine ⟨r',hr,range_map_eq.mpr (fun n hz => ?_)⟩
    by_cases hn : n ∈ asked dev idl .cacheDevice names
    · obtain ⟨k,hk,hi⟩ := picked_of_mem hn
      rw [own_asked hn,← hi]
      exact ha _ hk
    · rw [own_cached hz hn]
      refine (hout n.2 (fun m hm he => ?_)).trans (cleared_other hz hn)
      have hma := picked_mem hm
      exact hn (place_inj hz (List.filter_sublist.subset hma) he ▸ hma)

end Sources

section Answers
variable {dev idl} {held : Nat → Reading α} {names : List String}

/-- A call that asks the device, in terms of the call for the device. -/
theorem answers_iff {res : Except DevErrorList (Run α)} {n : Nat}
    {own : List (AttributeValue α)} {hook : Option DevErrorList} {P : Prop}
    (hsome : ∀ e, hook = some e → res = .error e)
    (hnone : hook = none → ((∃ r', res = .ok r' ∧ (List.range n).map r'.reply = own) ↔ P)) :
    (match res.map (fun r : Run α => (List.range n).map r.reply) with
      | .ok reply => reply = own
      | .error e => hook = some e) ↔ (hook = none → P) := by
  cases hk : hook with
  | some e =>
    rw [hsome e hk]
    simp [Except.map]
  | none =>
    rw [← hnone hk]
    cases res with
    | ok r' => simp [Except.map]
    | error e => simp [Except.map]

end Answers

section Oven

def plain (name : String) : Attribute Int where
  name := name
  writable := .read
  isFwdAtt := false
  encoded := false
  startupException := none
  memException := none
  pollingPeriod := 0
  isAllowed := true
  read := fun _ => (.done,⟨.valid,some [25],⟨1,0⟩⟩)
  setRvalue := fun r => .ok r
  writeValue := .ok []
  writeDim := .zero

/-- An oven whose temperature is polled and whose state cannot be computed. -/
def oven : DeviceImpl Int where
  attrs := [plain "Temperature",plain "State",plain "Status"]
  pollObjList := [⟨.pollAttr,"temperature",false,1000,90,3000,
    .ok ⟨"Temperature",.valid,.seq [20],⟨1,0⟩,.zero⟩⟩]
  now := 100
  deviceState := .on
  alarmList := []
  alwaysExecutedHook := none
  readAttrHardware := fun _ => none
  devState := .error (thrown "Broken" "No answer from the controller" "Oven::dev_state")
  devStatus := .ok "The device is in ON state."

def emptyHeld : Nat → Reading Int := fun _ => ⟨.valid,none,.zero⟩

end Oven

end CppTango.Device.Read
