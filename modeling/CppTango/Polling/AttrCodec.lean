import CppTango.Polling.AttrRoundTrip

namespace CppTango.Polling.AttrRoundTrip
open Lib AttrRecord

/-- A record as the tables alone describe it, before errors and data are handed out. -/
def tabled (name : String) (r : AttrRecord) : DeviceAttributeHistory :=
  { name := name, time := r.shortDate, quality := r.quality, rDim := r.rDim, wDim := r.wDim }

def based (name : String) (r : AttrRecord) : DeviceAttributeHistory :=
  stamp setFailed r.errs (tabled name r)

def encoded (k : SeqKind) (name : String) (s : AttrHistState k) : DevAttrHistory where
  name := name
  dates := s.dates
  value := s.newTmp.map (Seq.mk k)
  quals := s.quals
  rDims := s.rDims
  wDims := s.wDims
  errors := s.errors

section Decode
variable {type : CmdArgType} {k : SeqKind} {size : Nat} {fill : Elt k}

/-- Dates, qualities and dimensions come back; what is left is the error table and the
data. -/
theorem decode_tables (h : Built type size fill recs.length recs s)
    (hp : s.errors.vals.length = s.errors.spans.length) (name : String) :
    fromHist2AttHistory (encoded k name s) =
      ((orFault .outOfBounds (spread setFailed s.errors.rows (recs.reverse.map (tabled name)))).bind
        (fun ddh => match s.newTmp with
          | none => .ok ddh
          | some buf => extractValue ⟨k,buf⟩ ddh)) := by
  have hq := h.quals
  have hr := h.rDims
  have hw := h.wDims
  rw [List.map_map] at hq hr hw
  simp only [fromHist2AttHistory,encoded,hq.paired,hr.paired,hw.paired,hp,ne_eq,not_true_eq_false,
    or_self,if_false,h.dates,List.map_map]
  rw [hq.spread]
  simp only [orFault,bind,Except.bind]
  rw [hr.spread]
  simp only
  rw [hw.spread]
  simp only
  have helt : (fun r => stamp (fun d (h : DeviceAttributeHistory) => { h with wDim := d })
      ((some ∘ wDim) r) (stamp (fun d (h : DeviceAttributeHistory) => { h with rDim := d })
      ((some ∘ rDim) r) (stamp (fun q (h : DeviceAttributeHistory) => { h with quality := q })
      ((some ∘ quality) r) (((fun t => ({ time := t, name := name } : DeviceAttributeHistory)) ∘
        shortDate) r)))) = tabled name := rfl
  rw [helt]
  cases spread setFailed s.errors.rows (recs.reverse.map (tabled name)) with
  | none => rfl
  | some ddh => cases s.newTmp <;> rfl

theorem based_length (hz : r.Sized type k) :
    histLength (based name r) = (r.data type k).map List.length := by
  cases r with
  | failed e t => rfl
  | value v t =>
    by_cases hq : v.quality = .invalid
    · simp [histLength,based,tabled,stamp,errs,quality,data,hq]
    · obtain ⟨xs,hx,hl⟩ := hz hq
      simp [histLength,based,tabled,stamp,errs,quality,rDim,wDim,data,hq,hx,hl,Except.toOption]

theorem put_seq_inj (b : DeviceAttributeHistory) (xs ys : List (Elt k))
    (h : putSeq k xs b = putSeq k ys b) : xs = ys := by
  simpa [putSeq] using h

/-- What is read back differs from what was inserted by the nanoseconds alone. -/
theorem filled_expected (name : String) (r : AttrRecord) :
    filled (putSeq k) (based name) (data type k) r =
      { expected type k name r with time := r.shortDate } := by
  cases r with
  | failed e t => rfl
  | value v t =>
    cases hd : data type k (.value v t) with
    | none => simp [filled,hd,expected,based,stamp,errs,tabled]
    | some xs => simp [filled,hd,expected,based,stamp,errs,tabled,putSeq]

theorem short_date_eq (r : AttrRecord) : r.shortDate = r.date ↔ r.date.tvNsec = 0 := by
  constructor
  · intro h
    rw [← h]
    rfl
  · intro h
    rw [shortDate,← h]

theorem filled_eq_expected (name : String) (rs : List AttrRecord) :
    rs.map (filled (putSeq k) (based name) (data type k)) = rs.map (expected type k name) ↔
      ∀ r ∈ rs, r.date.tvNsec = 0 := by
  rw [List.map_inj_left]
  refine forall₂_congr fun r _ => ?_
  rw [filled_expected,← short_date_eq]
  constructor
  · intro h
    exact congrArg DeviceAttributeHistory.time h
  · intro h
    rw [h]
    rfl

/-- Room reserved for readings of invalid quality, which put no data in it. -/
def hiddenSize : AttrRecord → Nat
  | .value v _ => if v.quality = .invalid then dataLength v.rDim v.wDim else 0
  | .failed _ _ => 0

theorem record_size_split {recs : List AttrRecord} (hz : ∀ r ∈ recs, r.Sized type k) :
    (recs.map recordSize).sum =
      (stack (data type k) recs.reverse).length + (recs.map hiddenSize).sum := by
  induction recs with
  | nil => rfl
  | cons r recs ih =>
    have hr : recordSize r = ((r.data type k).getD []).length + hiddenSize r := by
      cases r with
      | failed e t => rfl
      | value v t =>
        by_cases hq : v.quality = .invalid
        · simp [recordSize,data,hiddenSize,hq]
        · obtain ⟨xs,hx,hl⟩ := hz _ List.mem_cons_self hq
          simp [recordSize,data,hiddenSize,hq,hx,hl,Except.toOption]
    have hstk : (stack (data type k) (r :: recs).reverse).length =
        (stack (data type k) recs.reverse).length + ((r.data type k).getD []).length := by
      rw [List.reverse_cons,stack_append,List.length_append]
      simp [stack,Nat.add_comm]
    rw [List.map_cons,List.sum_cons,hr,ih (fun q hq => hz q (List.mem_cons_of_mem _ hq)),hstk,
      List.map_cons,List.sum_cons]
    omega

theorem mem_stack (rs : List AttrRecord) (x : Elt k) :
    x ∈ stack (data type k) rs ↔ ∃ r ∈ rs, ∃ xs, r.data type k = some xs ∧ x ∈ xs := by
  induction rs with
  | nil => simp [stack]
  | cons r rs ih =>
    simp only [stack,List.mem_append,ih,List.mem_cons,exists_eq_or_imp]
    cases r.data type k <;> simp [or_comm]

/-- The data of all readings, and the padding that follows it, tell them apart. -/
def unpadded (type : CmdArgType) (fill : Elt k) (recs : List AttrRecord) : Prop :=
  (recs.map hiddenSize).sum = 0 ∨
    ∀ r ∈ recs, ∀ xs, r.data type k = some xs → ∀ x ∈ xs, x = fill

theorem dates_of_unstack {buf : List (Elt k)} {rs : List AttrRecord}
    (h : unstack histLength (putSeq k) buf base (rs.map (based name)) =
      some (rs.map (expected type k name))) : ∀ r ∈ rs, r.date.tvNsec = 0 := by
  have hput : ∀ xs b, (putSeq k xs b).time = b.time := fun _ _ => rfl
  have hkey := unstack_key DeviceAttributeHistory.time hput h
  simp only [List.map_map,List.map_inj_left,Function.comp_apply] at hkey
  intro r hr
  have htime : (based name r).time = r.shortDate := by cases r <;> rfl
  exact (short_date_eq r).mp (htime.symm.trans (hkey r hr).symm)

/-- With its runs in order the decoder is right up to nanoseconds and padding. -/
theorem decode_separated (h : Built type size fill recs.length recs s)
    (he : Encodes recs.length (recs.map errs) s.errors) (hz : ∀ r ∈ recs, r.Sized type k)
    (hsize : size = (recs.map recordSize).sum) (name : String) :
    fromHist2AttHistory (encoded k name s) = .ok (recs.reverse.map (expected type k name)) ↔
      (∀ r ∈ recs, r.date.tvNsec = 0) ∧ unpadded type fill recs := by
  have hdates : (∀ r ∈ recs.reverse, r.date.tvNsec = 0) ↔ ∀ r ∈ recs, r.date.tvNsec = 0 := by simp
  have hbased : recs.reverse.map (fun r => stamp setFailed r.errs (tabled name r)) =
      recs.reverse.map (based name) := rfl
  rw [decode_tables h he.paired,he.spread,orFault,Except.bind,hbased]
  cases hn : s.newTmp with
  | none =>
    have hnone := h.unused.mp hn
    have hfill : recs.reverse.map (based name) =
        recs.reverse.map (filled (putSeq k) (based name) (data type k)) := by
      rw [List.map_inj_left]
      intro r hr
      simp [filled,hnone r (List.mem_reverse.mp hr)]
    have hpad : unpadded type fill recs := by
      right
      intro r hr xs hx
      rw [hnone r hr] at hx
      cases hx
    rw [Except.ok.injEq,hfill,filled_eq_expected,hdates]
    exact (and_iff_left hpad).symm
  | some buf =>
    have hbuf := h.buffer
    rw [hn,Option.getD_some,hsize,record_size_split hz,Nat.add_sub_cancel_left] at hbuf
    have hlen : ∀ r ∈ recs.reverse, histLength (based name r) = (r.data type k).map List.length :=
      fun r hr => based_length (hz r (List.mem_reverse.mp hr))
    have hsuf : stack (data type k) recs.reverse <:+ buf.take buf.length ↔
        unpadded type fill recs := by
      rw [List.take_length,hbuf,suffix_padded,unpadded]
      refine or_congr_right ?_
      simp only [mem_stack,List.mem_reverse]
      exact ⟨fun ha r hr xs hx x hm => ha x ⟨r,hr,xs,hx,hm⟩,
        fun ha x hx => by
          obtain ⟨r,hr,xs,hxs,hm⟩ := hx
          exact ha r hr xs hxs x hm⟩
    change orFault .outOfBounds (unstack histLength (putSeq k) buf buf.length
      (recs.reverse.map (based name))) = _ ↔ _
    rw [or_fault_ok]
    constructor
    · intro hu
      have hd := dates_of_unstack hu
      rw [← (filled_eq_expected name recs.reverse).mpr hd] at hu
      exact ⟨hdates.mp hd,hsuf.mp (suffix_of_unstack put_seq_inj (Nat.le_refl _) hlen hu)⟩
    · rintro ⟨hd,hpad⟩
      rw [← (filled_eq_expected name recs.reverse).mpr (hdates.mpr hd)]
      exact unstack_of_suffix (Nat.le_refl _) hlen (hsuf.mpr hpad)

/-- A reading under a run of errors comes back marked as failed. -/
theorem decode_smudged (h : Built type size fill recs.length recs s)
    (hs : Smudged recs.length recs.length p s.errors) (hp : p < recs.length)
    (hr : recs[recs.length - 1 - p]? = some r) (hv : r.errs = none) (name : String) :
    fromHist2AttHistory (encoded k name s) ≠ .ok (recs.reverse.map (expected type k name)) := by
  have hin : ∀ q ∈ s.errors.rows, q.2.Inside (recs.reverse.map (tabled name)).length := by
    simpa using hs.fits.inside (Nat.le_refl _)
  have hrev : recs.reverse[p]? = some r := by rw [List.getElem?_reverse hp,hr]
  have hmark := shade_marked setFailed (fun b => b.fail = true) (fun _ _ => rfl) s.errors.rows p
    (tabled name r) (Or.inr hs.marks)
  rw [decode_tables h hs.paired,spread_inside _ _ _ hin,orFault,Except.bind]
  intro hdec
  have hkey : ((recs.reverse.map (tabled name)).mapIdx (shade setFailed s.errors.rows)).map
      DeviceAttributeHistory.fail = (recs.reverse.map (expected type k name)).map
        DeviceAttributeHistory.fail := by
    cases hn : s.newTmp with
    | none =>
      simp only [hn,Except.ok.injEq] at hdec
      rw [hdec]
    | some buf =>
      have hput : ∀ xs b, (putSeq k xs b).fail = b.fail := fun _ _ => rfl
      simp only [hn,extractValue,or_fault_ok] at hdec
      exact (unstack_key DeviceAttributeHistory.fail hput hdec).symm
  have hat := congrArg (fun l => l[p]?) hkey
  simp only [List.getElem?_map,List.getElem?_mapIdx,hrev,Option.map_some,hmark,expected,hv,
    Option.isSome_none] at hat
  simp at hat

end Decode

/-- The encoder takes the newest slot's version for the version of all. In a ring of IDL 4
values a slot that has only seen exceptions passes for one of IDL 5. -/
def versionSeen (idl5 : Bool) (ring : PollRing) (n : Nat) (recs : List AttrRecord) : Prop :=
  idl5 = true ∨ (((ring.recent n).head?.bind RingElt.attrValue4).isSome = true) ∨
    ∀ r ∈ recs, r.errs ≠ none

/-- The version the encoder finds is the right one, or does not matter, or is the other. -/
theorem version_cases {idl5 : Bool} (ring : PollRing) {n : Nat} {recs : List AttrRecord}
    (h1 : 1 ≤ recs.length)
    (ho : List.Forall₂ (fun e _ => e.attrVal (!idl5) = .error .nullPointer) (ring.recent n) recs) :
    (((ring.recent n).head?.bind RingElt.attrValue4).isNone = idl5 ∧ versionSeen idl5 ring n recs) ∨
    (((ring.recent n).head?.bind RingElt.attrValue4).isNone = !idl5 ∧
      (versionSeen idl5 ring n recs ↔ ∀ r ∈ recs, r.errs ≠ none)) := by
  cases idl5 with
  | true =>
    left
    refine ⟨?_,Or.inl rfl⟩
    generalize ring.recent n = es at ho
    cases ho with
    | nil => simp at h1
    | @cons e r es rs he _ =>
      cases hv : e.attrValue4 with
      | none => simp [hv]
      | some v => simp [RingElt.attrVal,hv] at he
  | false =>
    cases hv : (ring.recent n).head?.bind RingElt.attrValue4 with
    | none => exact Or.inr ⟨rfl,by simp [versionSeen,hv]⟩
    | some v => exact Or.inl ⟨rfl,Or.inr (Or.inl (by simp [hv]))⟩

/-- Encoding and decoding, once the first pass over the slots has found the version. -/
theorem codec_of_holds {type : CmdArgType} {k : SeqKind} (fill : Elt k) (name : String)
    (h : List.Forall₂ (Holds idl5) es recs) (hz : ∀ r ∈ recs, r.Sized type k) :
    ((seqSize idl5 es).bind (fun size => (addElts type idl5 size fill es {}).bind
        (fun s => fromHist2AttHistory (encoded k name s)))) =
      .ok (recs.reverse.map (expected type k name)) ↔
    errorsSeparated [] true recs ∧ (∀ r ∈ recs, r.date.tvNsec = 0) ∧ unpadded type fill recs := by
  rw [seq_size_records h,Except.bind,add_elts_records h]
  have hroom : (stack (data type k) ([] ++ recs).reverse).length ≤ (recs.map recordSize).sum := by
    rw [List.nil_append,record_size_split hz]
    omega
  have hstart : Built type (recs.map recordSize).sum fill recs.length [] {} := Built.start
  have hrun := add_records_run hstart (Encodes.nil _) rfl (by simp) hz hroom
  rcases hrun with ⟨hsep,s,hs,hb,he⟩ | ⟨hsep,⟨f,hf⟩ | ⟨s,p,r,hs,hb,hsm,hp,hr,hv⟩⟩
  · rw [hs,Except.bind,decode_separated hb he hz rfl name]
    exact (and_iff_right hsep).symm
  · rw [hf]
    exact ⟨fun hc => (by cases hc),fun hc => absurd hc.1 hsep⟩
  · rw [hs,Except.bind]
    exact ⟨fun hc => absurd hc (decode_smudged hb hsm hp hr hv name),fun hc => absurd hc.1 hsep⟩

theorem get_attr_history_eq (type : CmdArgType) (k : SeqKind) (fill : Elt k) (name : String)
    (ring : PollRing) (n : Nat) (hv : ((ring.recent n).head?.bind RingElt.attrValue4).isNone = v) :
    (getAttrHistory type k fill name ring n).bind fromHist2AttHistory =
      (seqSize v (ring.recent n)).bind (fun size =>
        (addElts type v size fill (ring.recent n) {}).bind
          (fun s => fromHist2AttHistory (encoded k name s))) := by
  subst hv
  simp only [getAttrHistory,bind,pure,Except.pure]
  cases hs : seqSize ((ring.recent n).head?.bind RingElt.attrValue4).isNone (ring.recent n) with
  | error f => rfl
  | ok size =>
    simp only [Except.bind]
    cases addElts type _ size fill (ring.recent n) {} with
    | error f => rfl
    | ok s => rfl

/-- The attribute history comes back as it was inserted exactly when the version is seen in
the newest slot, no error run reaches over an invalid reading, no date has nanoseconds and
invalid readings reserve no room. -/
theorem attr_history_round_trip (idl5 : Bool) (depth : Nat) (hd : 0 < depth)
    (log : List AttrRecord) (type : CmdArgType) (k : SeqKind) (_hk : attrSeqKind type = some k)
    (fill : Elt k) (name : String) (n : Nat) (hz : ∀ r ∈ log, r.Sized type k) (h1 : 1 ≤ n)
    (hn : n ≤ getNbElt (attrRing idl5 depth hd log)) :
    (getAttrHistory type k fill name (attrRing idl5 depth hd log) n).bind fromHist2AttHistory =
      .ok ((log.reverse.take n).reverse.map (expected type k name)) ↔
    versionSeen idl5 (attrRing idl5 depth hd log) n (log.reverse.take n) ∧
      errorsSeparated [] true (log.reverse.take n) ∧
      (∀ r ∈ log.reverse.take n, r.date.tvNsec = 0) ∧
      unpadded type fill (log.reverse.take n) := by
  have hh := recent_records idl5 (insert_record_holds idl5) depth hd log n hn
  have ho := recent_records (R := fun e _ => e.attrVal (!idl5) = .error .nullPointer) idl5
    (insert_record_other idl5) depth hd log n hn
  have hz' : ∀ r ∈ log.reverse.take n, r.Sized type k :=
    fun r hr => hz r (List.mem_reverse.mp (List.mem_of_mem_take hr))
  have hlen : (log.reverse.take n).length = n := by
    have hnb : getNbElt (attrRing idl5 depth hd log) = min log.length depth := by
      rw [getNbElt,attrRing,Ring.run_nbElt _ rfl]
      simp [pollRing,Ring.make]
    rw [List.length_take,List.length_reverse]
    omega
  rcases version_cases _ (by omega) ho with ⟨hv,hseen⟩ | ⟨hv,hseen⟩
  · rw [get_attr_history_eq _ _ _ _ _ _ hv,codec_of_holds fill name hh hz']
    exact (and_iff_right hseen).symm
  · rw [get_attr_history_eq _ _ _ _ _ _ hv,hseen]
    by_cases hf : ∀ r ∈ log.reverse.take n, r.errs ≠ none
    · rw [codec_of_holds fill name (holds_of_failed hh hf) hz']
      exact (and_iff_right hf).symm
    · have hex : ∃ r ∈ log.reverse.take n, r.errs = none := by
        by_contra hno
        exact hf (fun r hr he => hno ⟨r,hr,he⟩)
      rw [seq_size_wrong hh hex]
      exact ⟨fun hc => (by cases hc),fun hc => absurd hc.1 hf⟩

def timeout : DevError :=
  ⟨"API_CommandTimedOut",.err,"Timeout on the device","Device::read_attr_hardware"⟩

def reading : AttributeValue where
  name := "Position"
  value := .seq ⟨.long,[7]⟩
  quality := .valid
  time := ⟨1,250,0⟩
  rDim := ⟨1,0⟩
  wDim := .zero
  errList := []

/-- A reading of invalid quality, without data. -/
def noReading : AttributeValue :=
  { reading with value := .unionNoData, quality := .invalid, rDim := .zero }

theorem attr_history_two_records :
    (getAttrHistory .devLong .long 0 "Position"
        (attrRing false 2 (by decide) [.failed [timeout] 1000,.value reading 3000]) 2).bind
      fromHist2AttHistory =
    .ok ([.failed [timeout] 1000,.value reading 3000].map (expected .devLong .long "Position")) := by
  have hz : ∀ r ∈ [AttrRecord.failed [timeout] 1000,.value reading 3000],
      r.Sized .devLong .long := by
    intro r hr
    simp only [List.mem_cons,List.not_mem_nil,or_false] at hr
    rcases hr with rfl | rfl
    · trivial
    · exact fun _ => ⟨[7],rfl,rfl⟩
  refine (attr_history_round_trip false 2 (by decide) _ .devLong .long rfl 0 "Position" 2 hz
    (by decide) (by decide)).mpr ⟨Or.inr (Or.inl rfl),?_,?_,Or.inl rfl⟩
  · simp [errorsSeparated,AttrRecord.empty,quality,reading]
  · decide

/-- An invalid reading between two failures with the same errors comes back as failed, and
the older failure as an invalid reading. -/
theorem attr_history_merged_run :
    (∀ r ∈ [AttrRecord.failed [timeout] 1000,.value noReading 2000,.failed [timeout] 3000],
      r.Sized .devLong .long) ∧
    1 ≤ 3 ∧ 3 ≤ getNbElt (attrRing true 3 (by decide)
      [.failed [timeout] 1000,.value noReading 2000,.failed [timeout] 3000]) ∧
    (getAttrHistory .devLong .long 0 "Position" (attrRing true 3 (by decide)
        [.failed [timeout] 1000,.value noReading 2000,.failed [timeout] 3000]) 3).bind
      fromHist2AttHistory ≠
    .ok ([.failed [timeout] 1000,.value noReading 2000,.failed [timeout] 3000].map
      (expected .devLong .long "Position")) := by
  refine ⟨?_,by decide,by decide,?_⟩
  · intro r hr
    simp only [List.mem_cons,List.not_mem_nil,or_false] at hr
    rcases hr with rfl | rfl | rfl
    · trivial
    · exact fun hq => absurd rfl hq
    · trivial
  · intro h
    have hfail := congrArg (fun res => (res.toOption.getD []).map DeviceAttributeHistory.fail) h
    revert hfail
    decide

end CppTango.Polling.AttrRoundTrip
