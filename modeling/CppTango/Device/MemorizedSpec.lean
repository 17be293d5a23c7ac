import CppTango.Device.MemorizedRestart

namespace CppTango.Device.Memorized

open CppTango.Lib CppTango.Device.Write

section Loops
variable {d : MemDevice} {attVal : List (AttributeValue Value)} {i : Nat}

theorem setMemExceptions_apply (errs : List NamedDevError) (ex : Nat → Option DevErrorList) :
    setMemExceptions d attVal errs ex i =
      (((errs.filter (fun e => attrOf d attVal e.indexInCall = some i)).getLast?).map
        NamedDevError.errList).or (ex i) := by
  induction errs using List.reverseRecOn with
  | nil => rfl
  | append_singleton errs e ih =>
    unfold setMemExceptions at ih ⊢
    rw [List.foldl_append,List.filter_append]
    simp only [List.foldl_cons,List.foldl_nil]
    cases ha : attrOf d attVal e.indexInCall with
    | none => simp [ha,ih]
    | some j =>
      by_cases hj : j = i
      · simp [ha,hj]
      · simp [ha,hj,ih,Function.update_of_ne (Ne.symm hj)]

theorem remark_apply (flags : Nat → Bool) : remark d attVal flags i =
    (flags i || (List.range attVal.length).any (fun k => attrOf d attVal k = some i)) := by
  unfold remark
  generalize List.range attVal.length = l
  induction l generalizing flags with
  | nil => simp
  | cons k l ih =>
    rw [List.foldl_cons,ih]
    cases ha : attrOf d attVal k with
    | none => simp [ha]
    | some j =>
      by_cases hj : j = i
      · simp [ha,hj]
      · simp [ha,hj,Function.update_of_ne (Ne.symm hj)]

end Loops

section Restarted
variable {d : MemDevice} {u : UserCode} {db : Nat → Option String}

theorem methodCalls_one (hn : d.Distinct) {a : AttIdx Value} (ha : a ∈ restartWork d u db)
    {m : MemAttr} {v : Value} (he : a.value = element m v) (e : Event) :
    (methodCalls d (elements db d.attrs.zipIdx) [e]).filter (fun c => c.1 = a.idxInMultiAttr) =
      if e = .written a.idxInNames then [(a.idxInMultiAttr,v)] else [] := by
  unfold methodCalls
  cases e with
  | checked k => rfl
  | written k =>
    cases hat : attrOf d (elements db d.attrs.zipIdx) k with
    | none =>
      have hk : k ≠ a.idxInNames := fun h => by
        rw [(attrOf_iff hn ha k).mpr h] at hat
        cases hat
      simp [hat,hk]
    | some i =>
      obtain ⟨m',v',hi,hr,hv⟩ := attrOf_some hn hat
      by_cases hk : k = a.idxInNames
      · have hi' : i = a.idxInMultiAttr := by
          have := (attrOf_iff hn ha k).mpr hk
          rw [hat,Option.some.injEq] at this
          exact this
        have hval := (mem_selected.mp ha).1
        rw [← hk,he,hv,Option.some.injEq] at hval
        obtain ⟨-,hvv⟩ : m'.name = m.name ∧ v' = v := by simpa [element] using hval
        subst hk
        simp [hat,hv,hi',hvv,element]
      · have hne : i ≠ a.idxInMultiAttr := fun h => hk ((attrOf_iff hn ha k).mp (h ▸ hat))
        simp [hat,hv,hk,hne,element]

theorem methodCalls_attr (hn : d.Distinct) {a : AttIdx Value} (ha : a ∈ restartWork d u db)
    {m : MemAttr} {v : Value} (he : a.value = element m v) (log : List Event) :
    (methodCalls d (elements db d.attrs.zipIdx) log).filter (fun c => c.1 = a.idxInMultiAttr) =
      ((log.filter (fun e => e.about = a.idxInNames)).filter
        (fun e => e = .written a.idxInNames)).map (fun _ => (a.idxInMultiAttr,v)) := by
  have happ : ∀ e log, methodCalls d (elements db d.attrs.zipIdx) (e :: log) =
      methodCalls d (elements db d.attrs.zipIdx) [e] ++
        methodCalls d (elements db d.attrs.zipIdx) log := by
    intro e log
    unfold methodCalls
    rw [← List.filterMap_append,List.singleton_append]
  induction log with
  | nil => rfl
  | cons e log ih =>
    rw [happ,List.filter_append,ih,methodCalls_one hn ha he]
    by_cases h : e = .written a.idxInNames
    · simp [h,Event.about]
    · by_cases hab : e.about = a.idxInNames <;> simp [h,hab]

/-- What `set_memorized_values` does with one attribute. -/
structure RestartOf (d : MemDevice) (u : UserCode) (db : Nat → Option String) (s : Started)
    (calls : List (Nat × Value)) (i : Nat) (m : MemAttr) : Prop where
  unset : found db i m = none → s.wattrs i = d.initial i
  set : ∀ v, found db i m = some v → (s.wattrs i).writeValue = [v]
  called : calls.filter (fun c => c.1 = i) =
    if u.isAllowed i then ((rewritten db i m).map (fun v => (i,v))).toList else []
  exception : s.memException i =
    (rewritten db i m).bind (fun _ => writeFailure d u (rewrittenInds d db) i m)
  marked : s.memorized i = m.memorized

variable (db) in
theorem set_initial {i : Nat} {m : MemAttr} (hi : d.attrs[i]? = some m) :
    (found db i m = none → (restoreAll d db (started d)).1.wattrs i = d.initial i) ∧
      ∀ v, found db i m = some v →
        ((restoreAll d db (started d)).1.wattrs i).writeValue = [v] := by
  rw [(restoreAll_attr db hi).1]
  unfold setAgain
  constructor
  · intro h
    simp only [h]
  · intro v h
    simp only [h]
    rfl

/-- Nothing to write. -/
theorem restart_empty (he : elements db d.attrs.zipIdx = []) {i : Nat} {m : MemAttr}
    (hi : d.attrs[i]? = some m) :
    RestartOf d u db (restoreAll d db (started d)).1 [] i m := by
  have hr : rewritten db i m = none := by
    cases hr : rewritten db i m with
    | none => rfl
    | some v =>
      have := mem_elements.mpr ⟨i,m,v,hi,hr,rfl⟩
      rw [he] at this
      cases this
  obtain ⟨h1,h2⟩ := set_initial db hi
  refine ⟨h1,h2,by simp [hr],?_,?_⟩
  · rw [restoreAll_eq,hr]
    rfl
  · rw [(restoreAll_attr db hi).2,hr]
    simp

/-- An attribute without an element keeps its value. -/
theorem untouched_value {i : Nat} {m : MemAttr} (hn : d.Distinct) (hi : d.attrs[i]? = some m)
    (hr : rewritten db i m = none) {w out : Work Value} {x : WAttribute Value}
    (hout : (afterChecks (restartDev d u db) (restartWork d u db) w).map
      (fun r => memorize (restartDev d u db) r.1 (copyLoop r.1 r.2)) = some out)
    (hw : w.wattrs i = x) : out.wattrs i = x := by
  have hno : ∀ a ∈ restartWork d u db, a.idxInMultiAttr ≠ i := by
    rintro a ha rfl
    obtain ⟨m',v,hi',hr',-⟩ := mem_restartWork hn ha
    rw [hi,Option.some.injEq] at hi'
    rw [← hi',hr] at hr'
    cases hr'
  exact afterChecks_inv (P := fun y => y = x) (fun a ha h => absurd h (hno a ha))
    (fun a ha h => absurd h (hno a ha)) (fun a ha h => absurd h (hno a ha))
    (fun a ha h => absurd h (hno a ha)) hout hw

/-- A value that was set and is written again stays, whether its write fails or not. -/
theorem rewritten_value (hn : d.Distinct) {a : AttIdx Value} (ha : a ∈ restartWork d u db)
    {m : MemAttr} {v : Value} (he : a.value = element m v) (hi : d.attrs[a.idxInMultiAttr]? = some m)
    {w out : Work Value} {wattrs : Nat → WAttribute Value}
    (hout : (afterChecks (restartDev d u db) (restartWork d u db) w).map
      (fun r => memorize (restartDev d u db) r.1 (copyLoop r.1 r.2)) = some out)
    (hw : w.wattrs = updSlots AttIdx.idxInMultiAttr (checkedValue (restartDev d u db))
      (restartWork d u db) wattrs)
    (hset : (wattrs a.idxInMultiAttr).writeValue = [v]) :
    (out.wattrs a.idxInMultiAttr).writeValue = [v] := by
  have hnd : ((restartWork d u db).map AttIdx.idxInMultiAttr).Nodup :=
    selected_idxInMultiAttr_nodup _ (elements_names db hn)
  have hplain : Plain (restartDev d u db) := impl_plain _ _ _
  have hp : (w.wattrs a.idxInMultiAttr).writeValue = [v] ∧ (w.wattrs a.idxInMultiAttr).oldValue = [v] := by
    have hs : (restartDev d u db).isScalar a = true := by
      unfold DeviceImpl.isScalar DeviceImpl.conf restartDev
      rw [impl_attr,hi]
      rfl
    rw [hw,updSlots_of_mem hnd ha,checkedValue,(restartWork_good hn ha).1,hs,he]
    exact ⟨rfl,hset⟩
  have hall := afterChecks_inv
    (P := fun y : WAttribute Value => y.writeValue = [v] ∧ y.oldValue = [v])
    (fun b _ _ scalar y hy => by
      unfold rollback
      split
      · exact ⟨hy.2,hy.2⟩
      · exact hy)
    (fun b _ _ y hy => hy)
    (fun b _ _ y hy => by
      rw [hplain.written]
      exact hy)
    (fun b _ _ y hy => by
      unfold copyData
      split <;> exact hy)
    hout hp
  exact hall.1

theorem attrOf_ne (hn : d.Distinct) {i : Nat} (h : ∀ m, d.attrs[i]? = some m → rewritten db i m = none)
    (k : Nat) : attrOf d (elements db d.attrs.zipIdx) k ≠ some i := by
  intro hk
  obtain ⟨m,v,hi,hr,-⟩ := attrOf_some hn hk
  rw [h m hi] at hr
  cases hr

theorem mem_methodCalls {c : Nat × Value} {log : List Event}
    (h : c ∈ methodCalls d (elements db d.attrs.zipIdx) log) :
    ∃ k, attrOf d (elements db d.attrs.zipIdx) k = some c.1 := by
  obtain ⟨e,-,he⟩ := List.mem_filterMap.mp h
  cases e with
  | checked k => cases he
  | written k =>
    obtain ⟨i,hi,hc⟩ := Option.bind_eq_some_iff.mp he
    obtain ⟨v,-,rfl⟩ := Option.map_eq_some_iff.mp hc
    exact ⟨k,hi⟩

/-- The device after the call at start-up. -/
def afterCall (d : MemDevice) (db : Nat → Option String) (out : Work Value) : Started :=
  { wattrs := out.wattrs
    memorized := remark d (elements db d.attrs.zipIdx) (restoreAll d db (started d)).1.memorized
    memException := setMemExceptions d (elements db d.attrs.zipIdx) out.errs (fun _ => none) }

variable {w out : Work Value}

theorem restart_of_none (hn : d.Distinct) {i : Nat} {m : MemAttr} (hi : d.attrs[i]? = some m)
    (hr : rewritten db i m = none)
    (hout : (afterChecks (restartDev d u db) (restartWork d u db) w).map
      (fun r => memorize (restartDev d u db) r.1 (copyLoop r.1 r.2)) = some out)
    (hw : w.wattrs = updSlots AttIdx.idxInMultiAttr (checkedValue (restartDev d u db))
      (restartWork d u db) (restoreAll d db (started d)).1.wattrs) :
    RestartOf d u db (afterCall d db out)
      (methodCalls d (elements db d.attrs.zipIdx) out.log) i m := by
  have hno : ∀ k, attrOf d (elements db d.attrs.zipIdx) k ≠ some i := by
    apply attrOf_ne hn
    intro m' hi'
    rw [hi,Option.some.injEq] at hi'
    rw [← hi',hr]
  have hkeep : out.wattrs i = (restoreAll d db (started d)).1.wattrs i := by
    apply untouched_value hn hi hr hout
    rw [hw]
    apply updSlots_of_not_mem
    rw [restartWork_inds u db hn]
    intro hm
    obtain ⟨⟨m',i'⟩,hp,rfl⟩ := List.mem_map.mp hm
    obtain ⟨hp,hs⟩ := List.mem_filter.mp hp
    have hi' := List.mem_zipIdx_iff_getElem?.mp hp
    rw [hi,Option.some.injEq] at hi'
    rw [← hi',hr] at hs
    cases hs
  obtain ⟨h1,h2⟩ := set_initial db hi
  refine ⟨fun h => hkeep.trans (h1 h),fun v h => (congrArg WAttribute.writeValue hkeep).trans (h2 v h),
    ?_,?_,?_⟩
  · have hnil : (methodCalls d (elements db d.attrs.zipIdx) out.log).filter (fun c => c.1 = i) = [] := by
      apply List.filter_eq_nil_iff.mpr
      intro c hc hci
      obtain ⟨k,hk⟩ := mem_methodCalls hc
      exact hno k (hk.trans (congrArg some (of_decide_eq_true hci)))
    rw [hnil,hr]
    split <;> rfl
  · change setMemExceptions d _ out.errs (fun _ => none) i = _
    rw [setMemExceptions_apply,hr]
    simp [hno]
  · change remark d _ _ i = _
    rw [remark_apply,(restoreAll_attr db hi).2,hr]
    simp [hno]

theorem restart_of_some (hn : d.Distinct) {a : AttIdx Value} (ha : a ∈ restartWork d u db)
    {m : MemAttr} {v : Value} (he : a.value = element m v) (hi : d.attrs[a.idxInMultiAttr]? = some m)
    (hr : rewritten db a.idxInMultiAttr m = some v)
    (hout : (afterChecks (restartDev d u db) (restartWork d u db) w).map
      (fun r => memorize (restartDev d u db) r.1 (copyLoop r.1 r.2)) = some out)
    (hw : w.wattrs = updSlots AttIdx.idxInMultiAttr (checkedValue (restartDev d u db))
      (restartWork d u db) (restoreAll d db (started d)).1.wattrs)
    (hrep : out.reported a.idxInNames =
      (writeFailure d u (rewrittenInds d db) a.idxInMultiAttr m).toList)
    (hlog : out.logged a.idxInNames =
      .checked a.idxInNames :: writeEvents (restartDev d u db) a) :
    RestartOf d u db (afterCall d db out)
      (methodCalls d (elements db d.attrs.zipIdx) out.log) a.idxInMultiAttr m := by
  have hf := (rewritten_some hr).2
  refine ⟨fun h => ?_,fun v' h => ?_,?_,?_,?_⟩
  · rw [h] at hf
    cases hf
  · rw [hf,Option.some.injEq] at h
    rw [← h]
    exact rewritten_value hn ha he hi hout hw ((set_initial db hi).2 v hf)
  · unfold Work.logged at hlog
    rw [methodCalls_attr hn ha he,hlog,hr]
    change _ = if (restartDev d u db).isAllowed a.idxInMultiAttr = true then [(a.idxInMultiAttr,v)] else []
    unfold writeEvents
    split <;> simp
  · change setMemExceptions d _ out.errs (fun _ => none) a.idxInMultiAttr = _
    have hfil : out.errs.filter (fun e => attrOf d (elements db d.attrs.zipIdx) e.indexInCall =
        some a.idxInMultiAttr) = out.errs.filter (fun e => e.indexInCall = a.idxInNames) := by
      apply List.filter_congr
      intro e _
      simp [attrOf_iff hn ha]
    unfold Work.reported at hrep
    rw [setMemExceptions_apply,hfil,← List.getLast?_map,hrep,hr]
    cases writeFailure d u (rewrittenInds d db) a.idxInMultiAttr m <;> rfl
  · change remark d _ _ a.idxInMultiAttr = _
    have hk := (attrOf_iff hn ha a.idxInNames).mpr rfl
    have hlen := (List.getElem?_eq_some_iff.mp (mem_selected.mp ha).1).1
    have hany : (List.range (elements db d.attrs.zipIdx).length).any
        (fun k => attrOf d (elements db d.attrs.zipIdx) k = some a.idxInMultiAttr) = true :=
      List.any_eq_true.mpr ⟨a.idxInNames,List.mem_range.mpr hlen,decide_eq_true hk⟩
    rw [remark_apply,hany,Bool.or_true,(found_some hf).2.1]

variable (db) in
/-- `set_memorized_values` always returns, and has then done with every attribute what the
database asks for. -/
theorem setMemorizedValues_spec (hn : d.Distinct) (hu : u.NamesAsked d) :
    ∃ s calls, setMemorizedValues d u db = some (s,calls) ∧
      (∀ i m, d.attrs[i]? = some m → RestartOf d u db s calls i m) ∧
      (∀ c ∈ calls, c.1 < d.attrs.length) ∧
      ∀ i, d.attrs[i]? = none → s.memorized i = false := by
  have hout_none : ∀ i, d.attrs[i]? = none → (restoreAll d db (started d)).1.memorized i = false := by
    intro i hi
    rw [restoreAll_eq]
    have hno : i ∉ d.attrs.zipIdx.map Prod.snd := by
      rw [List.zipIdx_map_snd]
      simpa using hi
    exact (updSlots_of_not_mem hno _).trans (by simp [MemDevice.memorizedFlag,hi])
  have hels : (restoreAll d db (started d)).2 = elements db d.attrs.zipIdx := by rw [restoreAll_eq]
  unfold setMemorizedValues
  by_cases he : elements db d.attrs.zipIdx = []
  · refine ⟨_,[],if_pos (hels.trans he),fun i m hi => restart_empty he hi,fun c hc => (by cases hc),
      hout_none⟩
  · obtain ⟨out,w,hcall,hafter,hw,hone⟩ :=
      restart_call db hn hu (restoreAll d db (started d)).1.wattrs
    dsimp only
    rw [hels,if_neg he]
    unfold restartDev at hcall
    rw [hcall]
    refine ⟨afterCall d db out,_,by rw [afterCall,restoreAll_eq]; rfl,?_,?_,?_⟩
    · intro i m hi
      cases hr : rewritten db i m with
      | none => exact restart_of_none hn hi hr hafter hw
      | some v =>
        obtain ⟨a,ha,rfl,hv⟩ := restartWork_exists (u := u) hn hi hr
        obtain ⟨hrep,hlog⟩ := hone a ha m hi
        exact restart_of_some hn ha hv hi hr hafter hw hrep hlog
    · intro c hc
      obtain ⟨k,hk⟩ := mem_methodCalls hc
      obtain ⟨m,v,hi,-,-⟩ := attrOf_some hn hk
      exact (List.getElem?_eq_some_iff.mp hi).1
    · intro i hi
      change remark d _ _ i = _
      rw [remark_apply,hout_none i hi]
      have hno : ∀ k, attrOf d (elements db d.attrs.zipIdx) k ≠ some i := by
        apply attrOf_ne hn
        intro m hm
        rw [hi] at hm
        cases hm
      simp [hno]

end Restarted

section Survives

/-- The attributes to be written at start-up, when `last` are the values last written. -/
def toWrite (d : MemDevice) (last : MemAttr → Option Value) : List Nat :=
  (d.attrs.zipIdx.filter (fun p => p.1.memorized && p.1.memorizedInit && (last p.1).isSome)).map
    Prod.snd

/-- The device after a restart as it should be: `last` are the values last written before. -/
structure Restored (d : MemDevice) (u : UserCode) (last : MemAttr → Option Value) (s : Started)
    (calls : List (Nat × Value)) : Prop where
  value : ∀ i m v, d.attrs[i]? = some m → m.memorized = true → last m = some v →
    (s.wattrs i).writeValue = [v]
  untouched : ∀ i m, d.attrs[i]? = some m → m.memorized = false ∨ last m = none →
    s.wattrs i = d.initial i
  /-- a method that is refused is not called; the write has failed then -/
  called : ∀ i m, d.attrs[i]? = some m → calls.filter (fun c => c.1 = i) =
    if m.memorized ∧ m.memorizedInit ∧ u.isAllowed i then
      ((last m).map (fun v => (i,v))).toList else []
  others : ∀ c ∈ calls, c.1 < d.attrs.length
  exception : ∀ i m, d.attrs[i]? = some m → s.memException i =
    if m.memorized ∧ m.memorizedInit then
      (last m).bind (fun _ => writeFailure d u (toWrite d last) i m) else none
  marked : ∀ i, s.memorized i = d.memorizedFlag i

variable {d : MemDevice} {u : UserCode} {st : State} {calls : List WriteCall}

theorem passed_of_accepted {m : MemAttr} {v : Value} (h : Accepted m v) :
    checkWrittenValue (m.conf false) (element m v) = .passed := by
  have hl : ¬ lengthWrong 1 (toUnsigned 1) (toUnsigned 0) := by decide
  simp [checkWrittenValue,MemAttr.conf,element,h.typed,h.inside,hl]

theorem found_eq {db : Nat → Option String} {i : Nat} {m : MemAttr} {last : Option Value}
    (ha : ∀ v, last = some v → Accepted m v) (hdb : m.memorized = true → db i = last.map dbText) :
    found db i m = if m.memorized = true ∧ last ≠ some (.string notUsed) then last else none := by
  cases hm : m.memorized with
  | false => simp [found,hm]
  | true =>
    have hdb := hdb hm
    cases last with
    | none =>
      have hv : memValue db i = notUsed := by simp [memValue,hdb]
      simp [found,hv]
    | some v =>
      have hv : memValue db i = dbText v := by simp [memValue,hdb]
      have hacc := ha v rfl
      by_cases hs : v = .string notUsed
      · have hu : memValue db i = notUsed := by
          rw [hv,hs]
          rfl
        simp [found,hu,hs]
      · have hu : dbText v ≠ notUsed := by
          by_cases h : ∃ s, v = .string s
          · obtain ⟨s,rfl⟩ := h
            exact fun h => hs (congrArg Value.string h)
          · exact dbText_ne_notUsed (fun s hs => h ⟨s,hs⟩)
        simp [found,hv,hu,hs,hm,hacc.writable,memRead_dbText hacc.typed,passed_of_accepted hacc]

theorem initial_ne {t : MemType} (h : (Value.string notUsed).hasType t = true) :
    [t.initial] ≠ [.string notUsed] := by
  cases t with
  | devString => decide
  | _ => cases h

def memorized (name : String) (t : MemType) (atInit : Bool) : MemAttr where
  name := name
  writable := .readWrite
  dataType := t
  memorized := true
  memorizedInit := atInit
  outsideLimit := fun _ => none

def quiet : UserCode := ⟨fun _ => true,fun _ => none,fun _ => .done⟩

def tuner : MemDevice := ⟨[memorized "Gain" .devLong true,memorized "Label" .devString false],4,"ON"⟩

def tuned : List WriteCall :=
  [⟨quiet,[⟨"gain",1,0,[.long 5]⟩,⟨"label",1,0,[.string "x"]⟩]⟩,⟨quiet,[⟨"GAIN",1,0,[.long (-7)]⟩]⟩]

def labelled : List WriteCall := [⟨quiet,[⟨"label",1,0,[.string "Not used yet"]⟩]⟩]

end Survives

end CppTango.Device.Memorized
