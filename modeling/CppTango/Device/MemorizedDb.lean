import CppTango.Device.Memorized
import CppTango.Device.WriteValues
import Mathlib.Data.List.Induction

namespace CppTango.Device.Memorized

open CppTango.Lib CppTango.Device.Write

section Texts

theorem ofInt_uchar (v : UInt8) : UInt8.ofInt (v.toNat : Int) = v := by
  have hlt := v.toNat_lt
  have hm : (((v.toNat : Int) % 2 ^ 8).toNat) = v.toNat := by omega
  unfold UInt8.ofInt
  rw [hm,UInt8.ofNat_toNat]

/-- A stored text is read back as the value it was made from. -/
theorem memRead_dbText {v : Value} {t : MemType} (h : v.hasType t = true) :
    memRead t (dbText v) = some v := by
  cases v with
  | short v =>
    have hr := readSigned_intText 16 v.toInt ⟨v.le_toInt,v.toInt_lt⟩
    cases t <;> simp_all [Value.hasType,memRead,dbText]
  | long v =>
    have hr := readSigned_intText 32 v.toInt ⟨v.le_toInt,v.toInt_lt⟩
    cases t <;> simp_all [Value.hasType,memRead,dbText]
  | long64 v =>
    have hr := readSigned_intText 64 v.toInt ⟨v.le_toInt,v.toInt_lt⟩
    cases t <;> simp_all [Value.hasType,memRead,dbText]
  | ushort v =>
    have hr := readUnsigned_intText 16 v.toNat (by decide) v.toNat_lt
    cases t <;> simp_all [Value.hasType,memRead,dbText]
  | uchar v =>
    have hlt := v.toNat_lt
    have hr := readSigned_intText 16 v.toNat (by omega)
    cases t <;> simp_all [Value.hasType,memRead,dbText,ofInt_uchar]
  | ulong v =>
    have hr := readUnsigned_intText 32 v.toNat (by decide) v.toNat_lt
    cases t <;> simp_all [Value.hasType,memRead,dbText]
  | ulong64 v =>
    have hr := readUnsigned_intText 64 v.toNat (by decide) v.toNat_lt
    cases t <;> simp_all [Value.hasType,memRead,dbText]
  | boolean v =>
    cases t <;> simp_all [Value.hasType,memRead,dbText]
    cases v <;> rfl
  | string v =>
    cases t <;> simp_all [Value.hasType,memRead,dbText]

/-- No number or truth value has the text that stands for no value. -/
theorem dbText_ne_notUsed {v : Value} (h : ∀ s, v ≠ .string s) : dbText v ≠ notUsed := by
  have hint : ∀ i : Int, String.ofList (intText i) ≠ notUsed := by
    intro i hi
    have hr := readSign_intText i
    have hl : intText i = notUsed.toList := by
      rw [← hi,String.toList_ofList]
    rw [hl] at hr
    cases hr
  cases v with
  | string s => exact absurd rfl (h s)
  | boolean v => cases v <;> decide
  | short v => exact hint _
  | long v => exact hint _
  | long64 v => exact hint _
  | ushort v => exact hint _
  | uchar v => exact hint _
  | ulong v => exact hint _
  | ulong64 v => exact hint _

end Texts

section Names
variable {d : MemDevice}

/-- No two attributes have the same name, whatever its letter case. -/
def MemDevice.Distinct (d : MemDevice) : Prop := (d.attrs.map (fun m => lowerName m.name)).Nodup

theorem impl_names (flags : Nat → Bool) (u : UserCode) (e : Option DevErrorList) :
    (impl d flags u e).names = d.attrs.map MemAttr.name := by
  unfold DeviceImpl.names impl
  apply List.ext_getElem?
  intro i
  simp [MemAttr.conf,Function.comp_def]

theorem impl_attr (flags : Nat → Bool) (u : UserCode) (e : Option DevErrorList) (i : Nat) :
    (impl d flags u e).attrs[i]? = (d.attrs[i]?).map (fun m => m.conf (flags i)) := by
  simp [impl]

theorem impl_plain (flags : Nat → Bool) (u : UserCode) (e : Option DevErrorList) :
    Plain (impl d flags u e) := by
  intro i
  simp only [impl]
  cases u.writeError i with
  | none => exact .inl rfl
  | some e => exact .inr ⟨e,rfl⟩

theorem same_index (hn : d.Distinct) {i j : Nat} {m m' : MemAttr} (hi : d.attrs[i]? = some m)
    (hj : d.attrs[j]? = some m') (h : lowerName m.name = lowerName m'.name) : i = j := by
  obtain ⟨hil,rfl⟩ := List.getElem?_eq_some_iff.mp hi
  obtain ⟨hjl,rfl⟩ := List.getElem?_eq_some_iff.mp hj
  have hi' : i < (d.attrs.map (fun m => lowerName m.name)).length := by simpa using hil
  have hj' : j < (d.attrs.map (fun m => lowerName m.name)).length := by simpa using hjl
  have he : (d.attrs.map (fun m => lowerName m.name))[i] =
      (d.attrs.map (fun m => lowerName m.name))[j] := by
    simpa using h
  exact (List.Nodup.getElem_inj_iff hn).mp he

variable {flags : Nat → Bool} {u : UserCode} {e : Option DevErrorList} {v : AttributeValue Value}

theorem select_attr {ind : Nat} (h : select (impl d flags u e) v = .ok ind) :
    ∃ m, d.attrs[ind]? = some m ∧ lowerName m.name = lowerName v.name ∧
      checkConf (m.conf (flags ind)) v = none := by
  obtain ⟨att,ha,hl⟩ := select_name h
  rw [impl_attr,Option.map_eq_some_iff] at ha
  obtain ⟨m,hm,rfl⟩ := ha
  refine ⟨m,hm,hl,?_⟩
  unfold select at h
  split at h
  next => cases h
  next i hi =>
    have hia := impl_attr (d := d) flags u e i
    split at h
    next hnone =>
      cases h
      rw [hnone,hm] at hia
      cases hia
    next att hatt =>
      split at h
      next => cases h
      next hc =>
        cases h
        rw [hatt,hm,Option.map_some,Option.some.injEq] at hia
        rw [← hia]
        exact hc

/-- An element is for the attribute with its name. -/
theorem select_iff (hn : d.Distinct) {i ind : Nat} {m : MemAttr} (hi : d.attrs[i]? = some m)
    (h : select (impl d flags u e) v = .ok ind) :
    ind = i ↔ lowerName v.name = lowerName m.name := by
  obtain ⟨m',hm',hl,-⟩ := select_attr h
  constructor
  · rintro rfl
    rw [hi,Option.some.injEq] at hm'
    rw [hm',hl]
  · intro he
    exact same_index hn hm' hi (hl.trans he)

end Names

section Call
variable {d : MemDevice} {st st' : State} {c : WriteCall}

/-- The elements of a call that are for one attribute. -/
def writesTo (m : MemAttr) (values : List (AttributeValue Value)) : List (AttributeValue Value) :=
  values.filter (fun v => lowerName v.name = lowerName m.name)

/-- The value last written to an attribute. -/
def lastWritten (m : MemAttr) (calls : List WriteCall) : Option Value :=
  (writesTo m (calls.flatMap WriteCall.values)).getLast?.bind (fun v => v.seq.head?)

theorem selected_values {dev : DeviceImpl Value} {values : List (AttributeValue Value)}
    (h : (selectAll dev 0 values).2 = []) (p : AttIdx Value → Bool) (q : AttributeValue Value → Bool)
    (hpq : ∀ a ∈ selected dev values, p a = q a.value) :
    ((selected dev values).filter p).map AttIdx.value = values.filter q := by
  have hall : (selected dev values).map AttIdx.value = values := by
    rw [selectAll_eq] at h
    have hs : ∀ x ∈ values.zipIdx 0, (selectedAt dev x).map AttIdx.value = some x.1 := by
      intro x hx
      have hr := List.filterMap_eq_nil_iff.mp h x hx
      unfold rejectedAt at hr
      unfold selectedAt
      cases hsel : select dev x.1 with
      | ok ind => rfl
      | error e =>
        rw [hsel] at hr
        cases hr
    rw [selected,List.map_filterMap,List.filterMap_congr hs,← List.zipIdx_map_fst 0 values]
    simp
  rw [List.filter_congr hpq]
  conv_rhs => rw [← hall,List.filter_map]
  rfl

/-- A value that can be written to an attribute. -/
structure Accepted (m : MemAttr) (v : Value) : Prop where
  writable : writable m = true
  typed : v.hasType m.dataType = true
  inside : m.outsideLimit v = none

theorem accepted_of_passed {m : MemAttr} {flag : Bool} {v : AttributeValue Value}
    (hc : checkConf (m.conf flag) v = none) (hp : checkWrittenValue (m.conf flag) v = .passed) :
    ∃ x, v.seq.head? = some x ∧ Accepted m x := by
  have hw : writable m = true := by
    unfold checkConf at hc
    split at hc
    next => cases hc
    next h =>
      unfold writable
      simp only [MemAttr.conf] at h
      cases hm : m.writable <;> simp [hm] at h ⊢
  unfold checkWrittenValue at hp
  split at hp
  next => cases hp
  next hi =>
    split at hp
    next => cases hp
    next =>
      split at hp
      next => cases hp
      next ho =>
        obtain ⟨name,x,y,seq⟩ := v
        cases seq with
        | nil => simp [MemAttr.conf] at hp
        | cons v seq =>
          simp only [MemAttr.conf,List.all_cons,ite_eq_left_iff,reduceCtorEq,imp_false,not_not,
            Bool.and_eq_true,List.findSome?_cons] at hi ho
          refine ⟨v,rfl,hw,hi.1,?_⟩
          cases hv : m.outsideLimit v with
          | none => rfl
          | some e =>
            rw [hv] at ho
            cases ho

theorem store_eq {dev : DeviceImpl Value} {values : List (AttributeValue Value)} {out : Work Value}
    {db : Nat → Option String} {i : Nat} {m : MemAttr} {old : List Value}
    (hv : ((selected dev values).filter (fun a => a.idxInMultiAttr = i)).map AttIdx.value =
      writesTo m values)
    (hlast : (out.wattrs i).lastWrittenValue =
      ((((selected dev values).filter (fun a => a.idxInMultiAttr = i)).getLast?).map
        (fun a => a.value.seq)).getD old)
    (hm : ∀ a ∈ selected dev values, a.idxInMultiAttr = i → dev.isMemorized a = true) :
    store dev values out db i = if writesTo m values = [] then db i
      else ((writesTo m values).getLast?.bind (fun v => v.seq.head?)).map dbText := by
  have hany : (selected dev values).any (fun a => a.idxInMultiAttr = i ∧ dev.isMemorized a) = true ↔
      writesTo m values ≠ [] := by
    rw [← hv,List.any_eq_true,Ne,List.map_eq_nil_iff,List.filter_eq_nil_iff]
    constructor
    · rintro ⟨a,ha,hc⟩ hall
      have hc := of_decide_eq_true hc
      exact hall a ha (decide_eq_true hc.1)
    · intro h
      simp only [not_forall,not_not] at h
      obtain ⟨a,ha,hai⟩ := h
      have hai := of_decide_eq_true hai
      exact ⟨a,ha,decide_eq_true ⟨hai,hm a ha hai⟩⟩
  unfold store
  by_cases he : writesTo m values = []
  · rw [if_neg (fun h => hany.mp h he),if_pos he]
  · rw [if_pos (hany.mpr he),if_neg he]
    unfold lastWrittenText
    rw [hlast,← hv,List.getLast?_map]
    rw [← hv,List.map_eq_nil_iff] at he
    obtain ⟨a,hl⟩ := Option.isSome_iff_exists.mp (List.getLast?_isSome.mpr he)
    rw [hl]
    rfl

/-- What a successful call has written is what it was asked to, and can be written. -/
theorem writeAttributes_spec (hn : d.Distinct) (h : writeAttributes d st c = some st') {i : Nat}
    {m : MemAttr} (hi : d.attrs[i]? = some m) :
    (∀ v ∈ writesTo m c.values, ∃ x, v.seq.head? = some x ∧ Accepted m x) ∧
      (m.memorized = true → st'.db i = if writesTo m c.values = [] then st.db i
        else ((writesTo m c.values).getLast?.bind (fun v => v.seq.head?)).map dbText) := by
  unfold writeAttributes at h
  simp only at h
  split at h
  next out hout =>
    split at h
    next he =>
      cases h
      obtain ⟨hsel,hpass,-,-⟩ := writeAttributes34_clean hout he
      have hlast := lastWritten_clean hout he (impl_plain _ _ _) i
      have hiff : ∀ a ∈ selected (impl d d.memorizedFlag c.user none) c.values,
          a.idxInMultiAttr = i ↔ lowerName a.value.name = lowerName m.name :=
        fun a ha => select_iff hn hi (mem_selected.mp ha).2
      have hvals := selected_values hsel (fun a => a.idxInMultiAttr = i)
        (fun v => lowerName v.name = lowerName m.name) (fun a ha => by simp [hiff a ha])
      constructor
      · intro v hv
        unfold writesTo at hv
        rw [← hvals,List.mem_map] at hv
        obtain ⟨a,ha,rfl⟩ := hv
        obtain ⟨ha,hai⟩ := List.mem_filter.mp ha
        have hai : a.idxInMultiAttr = i := by simpa using hai
        obtain ⟨m',hm',-,hc⟩ := select_attr (mem_selected.mp ha).2
        rw [hai,hi,Option.some.injEq] at hm'
        have hp := hpass a ha
        unfold DeviceImpl.check DeviceImpl.conf at hp
        rw [impl_attr,hai,hi] at hp
        exact accepted_of_passed (hai ▸ hm' ▸ hc) hp
      · intro hm
        have hflag : ∀ a ∈ selected (impl d d.memorizedFlag c.user none) c.values,
            a.idxInMultiAttr = i → (impl d d.memorizedFlag c.user none).isMemorized a = true := by
          intro a ha hai
          unfold DeviceImpl.isMemorized DeviceImpl.conf
          rw [impl_attr,hai,hi]
          simp [MemAttr.conf,MemDevice.memorizedFlag,hi,hm]
        exact store_eq hvals hlast hflag
    next => cases h
  next => cases h

theorem lastWritten_concat (m : MemAttr) (calls : List WriteCall) (c : WriteCall) :
    lastWritten m (calls ++ [c]) = if writesTo m c.values = [] then lastWritten m calls
      else (writesTo m c.values).getLast?.bind (fun v => v.seq.head?) := by
  unfold lastWritten
  have hsplit : writesTo m ((calls ++ [c]).flatMap WriteCall.values) =
      writesTo m (calls.flatMap WriteCall.values) ++ writesTo m c.values := by
    simp [writesTo]
  rw [hsplit]
  by_cases he : writesTo m c.values = []
  · rw [if_pos he,he,List.append_nil]
  · rw [if_neg he,List.getLast?_append_of_ne_nil _ he]

/-- After any number of successful calls the database has the text of the value last written to
each memorized attribute, and this value can be written again. -/
theorem writeAll_spec (hn : d.Distinct) {calls : List WriteCall}
    (h : writeAll d (fresh d) calls = some st) {i : Nat} {m : MemAttr} (hi : d.attrs[i]? = some m) :
    (∀ v, lastWritten m calls = some v → Accepted m v) ∧
      (m.memorized = true → st.db i = (lastWritten m calls).map dbText) := by
  induction calls using List.reverseRecOn generalizing st with
  | nil =>
    cases h
    exact ⟨fun v hv => (by cases hv),fun _ => rfl⟩
  | append_singleton calls c ih =>
    unfold writeAll at h
    rw [List.foldlM_append] at h
    obtain ⟨st₁,h₁,h₂⟩ := Option.bind_eq_some_iff.mp h
    obtain ⟨hacc,hdb⟩ := ih h₁
    obtain ⟨hacc',hdb'⟩ := writeAttributes_spec hn (by simpa using h₂) hi
    rw [lastWritten_concat]
    by_cases he : writesTo m c.values = []
    · rw [if_pos he]
      refine ⟨hacc,fun hm => ?_⟩
      rw [hdb' hm,if_pos he,hdb hm]
    · rw [if_neg he]
      refine ⟨fun v hv => ?_,fun hm => ?_⟩
      · obtain ⟨w,hw,hv⟩ := Option.bind_eq_some_iff.mp hv
        obtain ⟨x,hx,ha⟩ := hacc' w (List.mem_of_getLast? hw)
        rw [hv,Option.some.injEq] at hx
        exact hx ▸ ha
      · rw [hdb' hm,if_neg he]

end Call

end CppTango.Device.Memorized
