import CppTango.Polling.CmdRoundTrip
import Mathlib.Data.List.Infix

namespace CppTango.Polling.CmdRoundTrip
open Lib CmdRecord

/-- A record as its date and errors alone describe it. -/
def based (r : CmdRecord) : DeviceDataHistory := stamp setDataFailed r.errs { time := r.date }

def failed? (r : CmdRecord) : Bool := r.errs.isSome

theorem based_fail (r : CmdRecord) : (based r).fail = failed? r := by
  cases r <;> rfl

theorem based_failed (ex : DevErrorList) (t : Nat) :
    based (.failed ex t) = expected (.failed ex t) := rfl

theorem based_result (a : CmdAny) (t : Nat) :
    { based (.result a t) with any := some a } = expected (.result a t) := rfl

section Decode
variable {form : CmdForm} {k : SeqKind} {size : Nat × Nat} {fill : Elt k}

theorem decode_tables (h : Built form k size fill recs.length recs s) (value : Option CmdAny)
    (type : CmdArgType) :
    fromHist4DataHistory ⟨s.dates,value,s.dims,s.errors,type⟩ =
      extractCmdValue type value (recs.reverse.map (dim form k)) (recs.reverse.map based) := by
  have hd := h.dims
  rw [List.map_map] at hd
  simp only [fromHist4DataHistory,hd.paired,h.errors.paired,ne_eq,not_true_eq_false,or_self,
    if_false,h.dates,List.map_map]
  rw [h.errors.spread]
  simp only [orFault,bind,Except.bind]
  rw [hd.spread]
  rfl

/-- One element or one sequence for each record: every record gets its own back. -/
theorem extract_seq_ok (hf : form = .simple ∨ form = .array) {rs : List CmdRecord}
    (ht : ∀ r ∈ rs, r.Typed form k) {tmp : List (Elt k)} {ad : List AttributeDim} {base : Nat}
    (hb : base ≤ tmp.length) (hs : stack (elts form k) rs <:+ tmp.take base) {loop : Nat}
    (had : ad.drop loop = rs.map (dim form k)) :
    extractSeq form k tmp ad loop base (rs.map based) = some (rs.map expected) := by
  induction rs generalizing base loop with
  | nil => rfl
  | cons r rs ih =>
    have ht' : ∀ q ∈ rs, q.Typed form k := fun q hq => ht q (List.mem_cons_of_mem _ hq)
    have hdim : ad[loop]? = some (r.dim form k) := by
      rw [← List.head?_drop,had]
      rfl
    have had' : ad.drop (loop+1) = rs.map (dim form k) := by
      rw [← List.drop_drop,had]
      rfl
    cases r with
    | failed ex t =>
      have hs' : stack (elts form k) rs <:+ tmp.take base := by
        simpa [stack,elts,data,any] using hs
      simp only [List.map_cons,extractSeq,hdim,based_fail,failed?,errs,Option.isSome_some,if_true,
        ih ht' hb hs' had']
      rfl
    | result a t =>
      obtain ⟨d,hd,hdata⟩ := data_of_typed (ht _ List.mem_cons_self)
      have hs' : stack (elts form k) rs ++ d.1 <:+ tmp.take base := by
        simpa [stack,elts,hdata] using hs
      obtain ⟨hle,hcut,hrest⟩ := take_sub_of_suffix hb hs'
      have hlen : (dim form k (.result a t)).dimX = d.1.length := by
        rcases hf with rfl | rfl <;> simp [dim,hdata,dataDim]
      have hany : createAny form k tmp base d.1.length = some a := by
        rcases read_cases hd with ⟨rfl,x,rfl,rfl⟩ | ⟨rfl,ha,-⟩ | ⟨rfl,-⟩
        · have hx : tmp[base-1]? = some x := by
            have hh := congrArg List.head? hcut
            simpa [List.head?_take,List.head?_drop] using hh
          have h1 : 1 ≤ base := by simpa using hle
          simp [createAny,h1,hx]
        · simp only [createAny,hle,if_true,hcut]
          exact congrArg some ha.symm
        · rcases hf with hc | hc <;> cases hc
      simp only [List.map_cons,extractSeq,hdim,based_fail,failed?,errs,Option.isSome_none,
        Option.bind_eq_bind,Option.bind_some,Bool.false_eq_true,if_false,hlen,hany,
        ih ht' (by omega) hrest had']
      rfl

/-- Dimensions, oldest first, of the records that did not fail. -/
def goodDims (form : CmdForm) (k : SeqKind) (rs : List CmdRecord) : List AttributeDim :=
  (rs.filter (fun r => !failed? r)).map (dim form k)

theorem take_drop_length (l : List α) (base n : Nat) (hb : base ≤ l.length) (hn : n ≤ base) :
    ((l.drop (base - n)).take n).length = n := by
  rw [List.length_take,List.length_drop]
  omega

section Strings
variable {tmp : List (Elt k)} {svalue : List String} {ad : List AttributeDim}
  {loop baseStr baseNum : Nat} {hist : DeviceDataHistory} {ddh : List DeviceDataHistory}

theorem extract_strings_failed (h : hist.fail = true) :
    extractStrings k tmp svalue ad loop baseStr baseNum (hist :: ddh) =
      (extractStrings k tmp svalue ad loop baseStr baseNum ddh).map (fun rest => hist :: rest) := by
  rw [extractStrings,if_pos h]
  cases extractStrings k tmp svalue ad loop baseStr baseNum ddh <;> rfl

theorem extract_strings_none (h : hist.fail = false) (had : ad[loop]? = none) :
    extractStrings k tmp svalue ad loop baseStr baseNum (hist :: ddh) = none := by
  simp [extractStrings,h,had]

theorem extract_strings_some (h : hist.fail = false) (had : ad[loop]? = some dm) :
    extractStrings k tmp svalue ad loop baseStr baseNum (hist :: ddh) =
      if dm.dimX ≤ baseStr ∧ dm.dimY ≤ baseNum then
        (extractStrings k tmp svalue ad (loop+1) (baseStr - dm.dimX) (baseNum - dm.dimY) ddh).map
          (fun rest => { hist with any := some (.strings
            ⟨k,(tmp.drop (baseNum - dm.dimY)).take dm.dimY⟩
            ((svalue.drop (baseStr - dm.dimX)).take dm.dimX)) } :: rest)
      else none := by
  simp only [extractStrings,h,had,Bool.false_eq_true,if_false,Option.bind_eq_bind,Option.bind_some]
  cases extractStrings k tmp svalue ad (loop+1) (baseStr - dm.dimX) (baseNum - dm.dimY) ddh <;> rfl

end Strings

/-- With strings the dimensions are read without a place for the failed records, so they are
right only where these leave a gap that does not show. -/
theorem extract_strings_iff {rs : List CmdRecord} (ht : ∀ r ∈ rs, r.Typed .strings k)
    {tmp : List (Elt k)} {svalue : List String} {ad : List AttributeDim} {baseStr baseNum : Nat}
    (hbs : baseStr ≤ svalue.length) (hbn : baseNum ≤ tmp.length)
    (hss : stack (texts .strings k) rs <:+ svalue.take baseStr)
    (hsn : stack (elts .strings k) rs <:+ tmp.take baseNum) {loop : Nat} :
    extractStrings k tmp svalue ad loop baseStr baseNum (rs.map based) = some (rs.map expected) ↔
      goodDims .strings k rs <+: ad.drop loop := by
  induction rs generalizing baseStr baseNum loop with
  | nil => simp [extractStrings,goodDims]
  | cons r rs ih =>
    have ht' : ∀ q ∈ rs, q.Typed .strings k := fun q hq => ht q (List.mem_cons_of_mem _ hq)
    cases r with
    | failed ex t =>
      have hss' : stack (texts .strings k) rs <:+ svalue.take baseStr := by
        simpa [stack,texts,data,any] using hss
      have hsn' : stack (elts .strings k) rs <:+ tmp.take baseNum := by
        simpa [stack,elts,data,any] using hsn
      have hgood : goodDims .strings k (.failed ex t :: rs) = goodDims .strings k rs := rfl
      rw [hgood,← ih ht' hbs hbn hss' hsn',List.map_cons,extract_strings_failed rfl]
      cases extractStrings k tmp svalue ad loop baseStr baseNum (rs.map based) <;> simp [based_failed]
    | result a t =>
      obtain ⟨d,hd,hdata⟩ := data_of_typed (ht _ List.mem_cons_self)
      have ha : a = .strings ⟨k,d.1⟩ d.2 := by
        rcases read_cases hd with ⟨hc,-⟩ | ⟨hc,-⟩ | ⟨-,ha⟩
        · cases hc
        · cases hc
        · exact ha
      have hgood : goodDims .strings k (.result a t :: rs) =
          ⟨d.2.length,d.1.length⟩ :: goodDims .strings k rs := by
        simp [goodDims,failed?,errs,dim,hdata,dataDim]
      rw [hgood,List.map_cons]
      cases had : ad[loop]? with
      | none =>
        have hnil : ad.drop loop = [] := List.drop_eq_nil_of_le (List.getElem?_eq_none_iff.mp had)
        rw [extract_strings_none rfl had,hnil]
        simp
      | some dm =>
        have hcons : ad.drop loop = dm :: ad.drop (loop+1) := by
          obtain ⟨hlt,hget⟩ := List.getElem?_eq_some_iff.mp had
          rw [List.drop_eq_getElem_cons hlt,hget]
        rw [extract_strings_some rfl had,hcons,List.cons_prefix_cons]
        have hss' : stack (texts .strings k) rs ++ d.2 <:+ svalue.take baseStr := by
          simpa [stack,texts,hdata] using hss
        have hsn' : stack (elts .strings k) rs ++ d.1 <:+ tmp.take baseNum := by
          simpa [stack,elts,hdata] using hsn
        obtain ⟨hles,hcuts,hrests⟩ := take_sub_of_suffix hbs hss'
        obtain ⟨hlen,hcutn,hrestn⟩ := take_sub_of_suffix hbn hsn'
        by_cases hdm : (⟨d.2.length,d.1.length⟩ : AttributeDim) = dm
        · subst hdm
          rw [if_pos ⟨hles,hlen⟩,← ih ht' (by omega) (by omega) hrests hrestn,hcuts,hcutn,← ha,
            based_result]
          cases extractStrings k tmp svalue ad (loop+1) (baseStr - d.2.length)
            (baseNum - d.1.length) (rs.map based) <;> simp
        · -- a slice of another length cannot be the value that was inserted
          simp only [hdm,false_and,iff_false]
          intro hc
          split at hc
          · rename_i hle
            simp only [Option.map_eq_some_iff,List.map_cons,List.cons.injEq] at hc
            obtain ⟨rest,-,hx,-⟩ := hc
            have hval := congrArg DeviceDataHistory.any hx
            simp only [expected,any,ha,Option.some.injEq,CmdAny.strings.injEq,Seq.mk.injEq,heq_eq_eq,
              true_and] at hval
            apply hdm
            rw [← hval.1,← hval.2,take_drop_length _ _ _ hbs hle.1,take_drop_length _ _ _ hbn hle.2]
          · cases hc

theorem based_eq_expected (rs : List CmdRecord) :
    rs.map based = rs.map expected ↔ ∀ r ∈ rs, failed? r = true := by
  rw [List.map_inj_left]
  refine forall₂_congr fun r _ => ?_
  cases r with
  | failed ex t => simp [based_failed,failed?,errs]
  | result a t =>
    have hne : based (.result a t) ≠ expected (.result a t) := by
      intro hc
      cases congrArg DeviceDataHistory.any hc
    simp [hne,failed?,errs]

end Decode

def unsignedTypes : List CmdArgType := [.devUShort,.devULong,.devVarUShortArray,.devVarULongArray]

/-- When the history of a command of a given output type can be read back. -/
def historyKept (type : CmdArgType) (form : CmdForm) (k : SeqKind) (recs : List CmdRecord) : Prop :=
  recs.head?.bind errs ≠ some [] ∧
    if type = .devVarBooleanArray then ∀ r ∈ recs, failed? r = true
    else type ∉ unsignedTypes ∧ (∃ r ∈ recs, failed? r = false) ∧
      (form = .strings → goodDims form k recs.reverse <+: recs.reverse.map (dim form k))

theorem hist_form_eq (hf : cmdForm type = some (form,k)) (hv : type ≠ .devVoid) :
    histForm type = if type = .devVarBooleanArray then none else some (form,k) := by
  cases type with
  | devVoid => exact absurd rfl hv
  | _ => first | rfl | exact hf | cases hf

theorem cmd_value_unsigned (hu : type ∈ unsignedTypes) (form : CmdForm) (s : CmdHistState k) :
    cmdValue type form s = none := by
  simp only [unsignedTypes,List.mem_cons,List.not_mem_nil,or_false] at hu
  rcases hu with rfl | rfl | rfl | rfl <;> rfl

theorem cmd_value_eq (hu : type ∉ unsignedTypes) (form : CmdForm) (s : CmdHistState k) :
    cmdValue type form s = match form with
      | .strings => s.nums.map (fun nums => .strings ⟨k,nums⟩ (s.strs.getD []))
      | _ => s.nums.map (fun nums => .array ⟨k,nums⟩) := by
  cases type <;> first | rfl | exact absurd (by decide) hu

theorem extract_empty (hf : histForm type = some (form,k)) (ad : List AttributeDim)
    (ddh : List DeviceDataHistory) : extractCmdValue type none ad ddh = .error .extractionFailed := by
  cases form <;> simp [extractCmdValue,hf]

/-- The sequences have been filled exactly. -/
theorem Built.exact {fill : Elt k} (h : Built form k ((stack (elts form k) recs).length,
    (stack (texts form k) recs).length) fill n recs s) :
    (∀ tmp, s.nums = some tmp → tmp = stack (elts form k) recs.reverse) ∧
    (∀ svalue, s.strs = some svalue → svalue = stack (texts form k) recs.reverse) := by
  constructor
  · intro tmp ht
    have hn := h.nums
    rw [ht,Option.getD_some,stack_length_reverse,Nat.sub_self] at hn
    simpa using hn
  · intro svalue hs
    have hn := h.strs
    rw [hs,Option.getD_some,stack_length_reverse,Nat.sub_self] at hn
    simpa using hn

theorem extract_strings_value {fill : Elt k} (hf : histForm type = some (.strings,k))
    (h : Built .strings k ((stack (elts .strings k) recs).length,
      (stack (texts .strings k) recs).length) fill recs.length recs s)
    (hn : s.nums = some tmp) (hu : type ∉ unsignedTypes) (ht : ∀ r ∈ recs, r.Typed .strings k) :
    extractCmdValue type (cmdValue type .strings s) (recs.reverse.map (dim .strings k))
        (recs.reverse.map based) = .ok (recs.reverse.map expected) ↔
      goodDims .strings k recs.reverse <+: recs.reverse.map (dim .strings k) := by
  obtain ⟨svalue,hs⟩ : ∃ svalue, s.strs = some svalue := by
    cases hs : s.strs with
    | none => simp [(h.both rfl).mp hs] at hn
    | some svalue => exact ⟨svalue,rfl⟩
  obtain rfl := h.exact.1 tmp hn
  obtain rfl := h.exact.2 svalue hs
  rw [cmd_value_eq hu]
  simp only [extractCmdValue,hf,hn,hs,Option.map_some,Option.getD_some,dif_pos,or_fault_ok]
  have ht' : ∀ r ∈ recs.reverse, r.Typed .strings k := fun r hr => ht r (List.mem_reverse.mp hr)
  exact extract_strings_iff ht' (Nat.le_refl _) (Nat.le_refl _) (by simp) (by simp)

theorem extract_seq_value {fill : Elt k} (hf : histForm type = some (form,k))
    (hform : form = .simple ∨ form = .array)
    (h : Built form k ((stack (elts form k) recs).length,
      (stack (texts form k) recs).length) fill recs.length recs s)
    (hn : s.nums = some tmp) (hu : type ∉ unsignedTypes) (ht : ∀ r ∈ recs, r.Typed form k) :
    extractCmdValue type (cmdValue type form s) (recs.reverse.map (dim form k))
        (recs.reverse.map based) = .ok (recs.reverse.map expected) := by
  obtain rfl := h.exact.1 tmp hn
  have ht' : ∀ r ∈ recs.reverse, r.Typed form k := fun r hr => ht r (List.mem_reverse.mp hr)
  have hseq : extractSeq form k (stack (elts form k) recs.reverse) (recs.reverse.map (dim form k)) 0
      (stack (elts form k) recs.reverse).length (recs.reverse.map based) =
        some (recs.reverse.map expected) :=
    extract_seq_ok hform ht' (Nat.le_refl _) (by simp) rfl
  rw [cmd_value_eq hu]
  rcases hform with rfl | rfl
  · simp only [extractCmdValue,hf,hn,Option.map_some,dif_pos,or_fault_ok]
    exact hseq
  · simp only [extractCmdValue,hf,hn,Option.map_some,dif_pos,or_fault_ok]
    exact hseq

theorem extract_value_iff {fill : Elt k} (hf : cmdForm type = some (form,k)) (hv : type ≠ .devVoid)
    (h : Built form k ((stack (elts form k) recs).length,
      (stack (texts form k) recs).length) fill recs.length recs s)
    (ht : ∀ r ∈ recs, r.Typed form k) :
    extractCmdValue type (cmdValue type form s) (recs.reverse.map (dim form k))
        (recs.reverse.map based) = .ok (recs.reverse.map expected) ↔
      if type = .devVarBooleanArray then ∀ r ∈ recs, failed? r = true
      else type ∉ unsignedTypes ∧ (∃ r ∈ recs, failed? r = false) ∧
        (form = .strings → goodDims form k recs.reverse <+: recs.reverse.map (dim form k)) := by
  have hh := hist_form_eq hf hv
  by_cases hb : type = .devVarBooleanArray
  · rw [if_pos hb] at hh ⊢
    simp only [extractCmdValue,hh,Except.ok.injEq,based_eq_expected,List.mem_reverse]
  · rw [if_neg hb] at hh ⊢
    by_cases hu : type ∈ unsignedTypes
    · rw [cmd_value_unsigned hu,extract_empty hh]
      simp [hu]
    · cases hn : s.nums with
      | none =>
        have hall := h.unused.mp hn
        have hnone : cmdValue type form s = none := by
          rw [cmd_value_eq hu]
          cases form <;> simp [hn]
        rw [hnone,extract_empty hh]
        constructor
        · intro hc
          cases hc
        · rintro ⟨-,⟨r,hr,hg⟩,-⟩
          have := hall r hr
          cases r with
          | failed ex t => cases hg
          | result a t => exact absurd rfl this
      | some tmp =>
        have hgood : ∃ r ∈ recs, failed? r = false := by
          by_contra hno
          have hnil : s.nums = none := by
            rw [h.unused]
            intro r hr hc
            exact hno ⟨r,hr,by simp [failed?,hc]⟩
          rw [hnil] at hn
          cases hn
        cases form with
        | void =>
          obtain ⟨r,hr,hg⟩ := hgood
          cases r with
          | failed ex t => cases hg
          | result a t =>
            obtain ⟨d,hd⟩ := ht _ hr
            cases hd
        | simple =>
          exact iff_of_true (extract_seq_value hh (Or.inl rfl) h hn hu ht)
            ⟨hu,hgood,fun hc => by cases hc⟩
        | array =>
          exact iff_of_true (extract_seq_value hh (Or.inr rfl) h hn hu ht)
            ⟨hu,hgood,fun hc => by cases hc⟩
        | strings =>
          rw [extract_strings_value hh h hn hu ht]
          exact ⟨fun hp => ⟨hu,hgood,fun _ => hp⟩,fun hp => hp.2.2 rfl⟩

/-- The command history comes back as it was inserted exactly when `historyKept` holds of the
records asked for: for an output type other than the unsigned ones and boolean arrays, when
some record did not fail and, with strings, failed records do not shift the dimensions. -/
theorem cmd_history_round_trip (fill : (k : SeqKind) → Elt k) (depth : Nat) (hd : 0 < depth)
    (log : List CmdRecord) (type : CmdArgType) (form : CmdForm) (k : SeqKind)
    (hf : cmdForm type = some (form,k)) (hv : type ≠ .devVoid)
    (ht : ∀ r ∈ log, r.Typed form k) (n : Nat)
    (hn : n ≤ getNbElt (cmdRing depth hd log)) :
    (getCmdHistory fill type (cmdRing depth hd log) n).bind fromHist4DataHistory =
      .ok ((log.reverse.take n).reverse.map expected) ↔
    historyKept type form k (log.reverse.take n) := by
  have hh := recent_holds depth hd log n hn
  generalize hrecs : log.reverse.take n = recs at hh ⊢
  have ht' : ∀ r ∈ recs, r.Typed form k := by
    intro r hr
    rw [← hrecs] at hr
    exact ht r (List.mem_reverse.mp (List.mem_of_mem_take hr))
  simp only [getCmdHistory,hf,cmd_seq_size hh ht',bind,Except.bind,historyKept]
  by_cases hfirst : recs.head?.bind errs = some []
  · rw [add_elts_first hh hfirst]
    simp [hfirst]
  · have hstart : Built form k ((stack (elts form k) recs).length,
        (stack (texts form k) recs).length) (fill k) recs.length [] {} := Built.start
    obtain ⟨s,hrun,hb⟩ := add_elts_built hh hstart (by simp) ht' (fun _ => hfirst)
      (by simp only [List.nil_append,stack_length_reverse,Nat.le_refl,and_self])
    rw [List.nil_append] at hb
    rw [hrun]
    simp only [pure,Except.pure]
    rw [decode_tables hb,extract_value_iff hf hv hb ht']
    simp [hfirst]

def zeroElt : (k : SeqKind) → Elt k
  | .boolean => false
  | .short => 0
  | .long => 0
  | .long64 => 0
  | .float => 0
  | .double => 0
  | .uchar => 0
  | .ushort => 0
  | .ulong => 0
  | .ulong64 => 0
  | .string => ""
  | .state => .unknown
  | .encoded => ⟨"",[]⟩

def refused : DevError :=
  ⟨"API_CommandNotAllowed",.err,"Command not allowed in state OFF","Device::always_executed_hook"⟩

def switchLog : List CmdRecord :=
  [.result (.strings ⟨.long,[3]⟩ ["a","b"]) 1000,.failed [refused] 2000,
    .result (.strings ⟨.long,[]⟩ []) 3001]

theorem switch_log_typed : ∀ r ∈ switchLog, r.Typed .strings .long := by
  intro r hr
  simp only [switchLog,List.mem_cons,List.not_mem_nil,or_false] at hr
  rcases hr with rfl | rfl | rfl
  · exact ⟨([3],["a","b"]),rfl⟩
  · trivial
  · exact ⟨([],[]),rfl⟩

/-- A failed record in the middle does not show when the record after it is empty too. -/
theorem cmd_history_empty_after_failure :
    (getCmdHistory zeroElt .devVarLongStringArray (cmdRing 3 (by decide) switchLog) 3).bind
      fromHist4DataHistory = .ok (switchLog.map expected) := by
  refine (cmd_history_round_trip zeroElt 3 (by decide) switchLog .devVarLongStringArray .strings .long
    rfl (by decide) switch_log_typed 3 (by decide)).mpr ⟨by decide,?_⟩
  rw [if_neg (by decide)]
  exact ⟨by decide,by decide,fun _ => by decide⟩

/-- A command that returns an unsigned integer: the one record comes back as a fault. -/
theorem cmd_history_unsigned :
    cmdForm .devUShort = some (.simple,.ushort) ∧
    (∀ r ∈ [CmdRecord.result (.scalar .ushort 7) 1000], r.Typed .simple .ushort) ∧
    1 ≤ getNbElt (cmdRing 1 (by decide) [.result (.scalar .ushort 7) 1000]) ∧
    (getCmdHistory zeroElt .devUShort
        (cmdRing 1 (by decide) [.result (.scalar .ushort 7) 1000]) 1).bind fromHist4DataHistory ≠
      .ok ([CmdRecord.result (.scalar .ushort 7) 1000].map expected) := by
  refine ⟨rfl,?_,by decide,?_⟩
  · intro r hr
    rw [List.mem_singleton.mp hr]
    exact ⟨([7],[]),rfl⟩
  · intro hc
    cases hc

end CppTango.Polling.CmdRoundTrip
