import CppTango.Polling.RingFaithful

namespace CppTango.Polling
open Lib

section Null
variable {α β : Type}

/-- No pointer that is not set was dereferenced. -/
def NotNull (x : Except Fault α) : Prop := x ≠ .error .nullPointer

theorem NotNull.ok (a : α) : NotNull (.ok a : Except Fault α) := fun h => by cases h

theorem NotNull.error {f : Fault} (h : f ≠ .nullPointer) : NotNull (.error f : Except Fault α) := fun he =>
  h (Except.error.inj he)

theorem NotNull.bind {x : Except Fault α} {f : α → Except Fault β} (hx : NotNull x)
    (hf : ∀ a, x = .ok a → NotNull (f a)) : NotNull (x >>= f) := by
  cases x with
  | error g => exact fun h => hx (congrArg Except.error (Except.error.inj h))
  | ok a => exact hf a rfl

theorem NotNull.ite {c : Prop} [Decidable c] {x y : Except Fault α} (hx : NotNull x) (hy : NotNull y) :
    NotNull (if c then x else y) := by
  split
  next => exact hx
  next => exact hy

theorem notNull_growLast (t : RunTable α) : NotNull (growLast t) := by
  unfold growLast
  split
  next => exact .ok _
  next => exact .error (by decide)

theorem notNull_noteQuality (t : RunTable AttrQuality) (last q : AttrQuality) (start : Nat) :
    NotNull (noteQuality t last q start) := by
  exact .ite (.ok _) (notNull_growLast t)

theorem notNull_noteDim (t : RunTable AttributeDim) (last : Int × Int) (d : AttributeDim) (start : Nat) :
    NotNull (noteDim t last d start) := by
  exact .ite (notNull_growLast t) (.ok _)

theorem notNull_noteErrors (t : RunTable DevErrorList) (previousNoData : Bool) (last errs : DevErrorList)
    (start : Nat) : NotNull (noteErrors t previousNoData last errs start) := by
  exact .ite (.ok _) (notNull_growLast t)

theorem notNull_unionData (type : CmdArgType) (k : SeqKind) (u : AttrValUnion) : NotNull (unionData type k u) := by
  have hcast : ∀ s : Seq, NotNull (Seq.cast? s k) := fun s => by
    unfold Seq.cast?
    split
    next => exact .ok _
    next => exact .error (by decide)
  unfold unionData
  split
  next => exact hcast _
  next => exact .error (by decide)
  next => exact hcast _
  next => exact .error (by decide)

variable {k : SeqKind} (type : CmdArgType) (size : Nat) (fill : Elt k) (start : Nat)

theorem notNull_addValue (v : AttributeValue) (s : AttrHistState k) :
    NotNull (addValue type size fill start v s) := by
  refine (notNull_noteQuality _ _ _ _).bind fun quals _ => (notNull_noteDim _ _ _ _).bind fun rDims _ =>
    (notNull_noteDim _ _ _ _).bind fun wDims _ => ?_
  dsimp only
  split
  next => exact .ok _
  next =>
    refine (notNull_unionData _ _ _).bind fun xs _ => ?_
    unfold addData
    split
    next => exact .ok _
    next => exact .error (by decide)

theorem notNull_addExcept (errs : DevErrorList) (t : Nat) (s : AttrHistState k) :
    NotNull (addExcept start errs t s) :=
  (notNull_noteErrors _ _ _ _ _).bind fun _ _ => (notNull_noteQuality _ _ _ _).bind fun _ _ =>
    (notNull_noteDim _ _ _ _).bind fun _ _ => (notNull_noteDim _ _ _ _).bind fun _ _ => .ok _

end Null

section Slots
variable {k : SeqKind} (type : CmdArgType) (size : Nat) (fill : Elt k) {idl5 : Bool} {es : List RingElt}

/-- Every slot that holds no exception has the pointer that is going to be read. -/
def Readable (idl5 : Bool) (es : List RingElt) : Prop :=
  ∀ e ∈ es, e.except = none → e.attrVal idl5 ≠ .error .nullPointer

theorem attrVal_ok {e : RingElt} (h : e.attrVal idl5 ≠ .error .nullPointer) : ∃ v, e.attrVal idl5 = .ok v := by
  unfold RingElt.attrVal at h ⊢
  split
  next v _ => exact ⟨v,rfl⟩
  next hn => rw [hn] at h; exact absurd rfl h

/-- The first pass meets every slot. -/
theorem seqSize_notNull_iff : NotNull (seqSize idl5 es) ↔ Readable idl5 es := by
  induction es with
  | nil => exact iff_of_true (.ok _) (fun _ h => by cases h)
  | cons e es ih =>
    have hcons : Readable idl5 (e :: es) ↔
        (e.except = none → e.attrVal idl5 ≠ .error .nullPointer) ∧ Readable idl5 es := List.forall_mem_cons
    rw [hcons,seqSize]
    cases he : e.except with
    | some errs => simpa using ih
    | none =>
      by_cases hv : e.attrVal idl5 = .error .nullPointer
      · rw [hv]
        exact iff_of_false (fun h => h rfl) (fun h => h.1 rfl rfl)
      · obtain ⟨v,hok⟩ := attrVal_ok hv
        rw [and_iff_right (fun _ => hv),← ih,hok]
        cases hs : seqSize idl5 es with
        | ok n => exact iff_of_true (.ok _) (.ok _)
        | error f => rfl

theorem notNull_addElts (h : Readable idl5 es) (s : AttrHistState k) :
    NotNull (addElts type idl5 size fill es s) := by
  induction es generalizing s with
  | nil => exact .ok _
  | cons e es ih =>
    refine NotNull.bind ?_ (fun s' _ => ih (fun e' he' => h e' (List.mem_cons_of_mem _ he')) s')
    unfold addElt
    cases he : e.except with
    | some errs => exact notNull_addExcept _ _ _ _
    | none =>
      obtain ⟨v,hok⟩ := attrVal_ok (h e List.mem_cons_self he)
      rw [hok]
      exact notNull_addValue type size fill _ v s

/-- The reader for IDL 4 and 5 is safe when the slots have the pointer that the newest one, whatever
it holds, makes it choose. -/
theorem getAttrHistory_notNull_iff (name : String) (ring : PollRing) (n : Nat) :
    NotNull (getAttrHistory type k fill name ring n) ↔
      Readable ((ring.recent n).head?.bind RingElt.attrValue4).isNone (ring.recent n) := by
  rw [← seqSize_notNull_iff]
  unfold getAttrHistory
  dsimp only
  constructor
  · intro h he
    rw [he] at h
    exact h rfl
  · intro h
    refine h.bind fun size _ => (notNull_addElts type size fill (seqSize_notNull_iff.mp h) _).bind fun s _ => ?_
    exact .ok _

end Slots

section Rings
variable (ver : ValueList) (depth : Nat) (hd : 0 < depth) (log : List (Record (.attr ver)))

theorem anyAttrVal_notNull {e : RingElt} {v : AttributeValue} (hver : ver ≠ .v2)
    (h : member (.attr ver) e = some v) : NotNull e.anyAttrVal := by
  unfold RingElt.anyAttrVal
  split
  next => exact .ok _
  next => exact .ok _
  next => exact .ok _
  next h₃ h₄ h₅ =>
    cases ver with
    | v2 => exact absurd rfl hver
    | v3 => exact absurd (h₃.symm.trans h) (by simp)
    | v4 => exact absurd (h₄.symm.trans h) (by simp)
    | v5 => exact absurd (h₅.symm.trans h) (by simp)

/-- The reader of the last insertion tests the pointers before it takes one. -/
theorem isLastAttrAnError_notNull (hver : ver ≠ .v2) (hlog : log ≠ []) :
    NotNull (isLastAttrAnError (kindRing (.attr ver) depth hd log)) := by
  obtain ⟨init,o,rfl⟩ := (List.eq_nil_or_concat log).resolve_left hlog
  rw [List.concat_eq_append] at *
  obtain ⟨-,hexcept,hdata⟩ := holds_last depth hd (init ++ [o]) List.getLast?_concat
  unfold isLastAttrAnError
  cases o with
  | failed errs t => rw [hexcept]; exact .ok _
  | data v t =>
    rw [hexcept]
    exact (anyAttrVal_notNull ver hver (hdata v rfl)).bind fun _ _ => .ok _

/-- Some reading was stored in the slot that is the newest one now. -/
def NewestSlotRead : Prop :=
  ∃ i, i % depth = (log.length - 1) % depth ∧ ∃ v t, log[i]? = some (.data v t)

end Rings

section Versions
variable (depth : Nat) (hd : 0 < depth)

theorem head_recent (r : PollRing) {n : Nat} (hn : 1 ≤ n) : (r.recent n).head? = some (lastElt r) := by
  obtain ⟨n,rfl⟩ := Nat.exists_eq_add_of_le hn
  have hone := recent_one r
  rw [Lib.Ring.recent,Lib.Ring.walk] at hone
  rw [Lib.Ring.recent,Nat.add_comm,Lib.Ring.walk]
  cases hc : r.cells[prevIndex r.cells.length r.insertElt]? with
  | none => rw [hc] at hone; cases hone
  | some e => rw [hc] at hone; injection hone with he; rw [← he]; rfl

/-- The newest slot has a value of IDL 4 once a reading was stored there, whatever came after it. -/
theorem newest_v4_iff (log : List (Record (.attr .v4))) (hlog : log ≠ []) :
    (lastElt (kindRing (.attr .v4) depth hd log)).attrValue4.isSome ↔ NewestSlotRead .v4 depth log := by
  have hw : ∀ (o : Record (.attr .v4)) (e : RingElt), (insert (.attr .v4) o e).attrValue4.isSome ↔
      (∃ v t, o = .data v t) ∨ e.attrValue4.isSome := by
    intro o e
    cases o with
    | data v t => exact iff_of_true rfl (.inl ⟨v,t,rfl⟩)
    | failed errs t =>
      refine (or_iff_right ?_).symm
      rintro ⟨v,t',h⟩
      cases h
  have hindex : lastIndex (kindRing (.attr .v4) depth hd log) = (log.length - 1) % depth := by
    obtain ⟨init,o,rfl⟩ := (List.eq_nil_or_concat log).resolve_left hlog
    have hinit := kindRing_insertElt depth hd init
    rw [List.concat_eq_append,lastIndex_eq,List.length_append,List.length_singleton,Nat.add_sub_cancel,← hinit]
    unfold kindRing
    rw [Lib.Ring.run_snoc,Lib.Ring.store_length]
    exact Lib.Ring.prev_next _ _
  have hcell : (kindRing (.attr .v4) depth hd log).cells[lastIndex (kindRing (.attr .v4) depth hd log)]? =
      some (lastElt (kindRing (.attr .v4) depth hd log)) := List.getElem?_eq_getElem (lastIndex_lt _)
  have h0 : ∀ e ∈ (pollRing depth hd).cells, ¬e.attrValue4.isSome = true := fun e he => by
    rw [List.eq_of_mem_replicate he]
    decide
  rw [Lib.Ring.run_marked hw (pollRing depth hd) rfl h0 log _ hcell,hindex,NewestSlotRead]
  simp only [pollRing,Lib.Ring.make,List.length_replicate]
  refine exists_congr fun i => and_congr_right fun _ => ?_
  constructor
  · rintro ⟨o,ho,v,t,rfl⟩
    exact ⟨v,t,ho⟩
  · rintro ⟨v,t,ho⟩
    exact ⟨_,ho,v,t,rfl⟩

/-- A slot that holds no exception holds the reading inserted last in it, and no other version. -/
theorem readable_of_member {ver : ValueList} {log : List (Record (.attr ver))} {n : Nat} {idl5 : Bool}
    (h : ∀ e : RingElt, ∀ v, member (.attr ver) e = some v → e.attrVal idl5 = .ok v)
    (hn : n ≤ (kindRing (.attr ver) depth hd log).nbElt) :
    Readable idl5 ((kindRing (.attr ver) depth hd log).recent n) := by
  intro e he hexcept
  obtain ⟨o,-,hh⟩ := exists_of_forall₂ (kindRing_recent depth hd log n hn).flip he
  cases o with
  | failed errs t => rw [hh.except] at hexcept; cases hexcept
  | data v t =>
    rw [h e v (hh.data v rfl)]
    exact fun he => by cases he

/-- Where the pointers of the version chosen are never set, only exceptions can be read. -/
theorem readable_iff_failed {ver : ValueList} {log : List (Record (.attr ver))} {n : Nat} {idl5 : Bool}
    {other : RingElt → Option AttributeValue} (h0 : other {} = none)
    (hkeep : ∀ (o : Record (.attr ver)) (e : RingElt), other e = none → other (insert (.attr ver) o e) = none)
    (h : ∀ e : RingElt, other e = none → e.attrVal idl5 = .error .nullPointer)
    (hn : n ≤ (kindRing (.attr ver) depth hd log).nbElt) :
    Readable idl5 ((kindRing (.attr ver) depth hd log).recent n) ↔
      ∀ o ∈ lastN n log, ∃ errs t, o = .failed errs t := by
  have hrecent := recent_other depth hd log h0 hkeep n hn
  have hmem : ∀ o, o ∈ log.reverse.take n ↔ o ∈ lastN n log := fun o => by rw [← lastN_eq,List.mem_reverse]
  constructor
  · intro hr o ho
    obtain ⟨e,he,hh⟩ := exists_of_forall₂ hrecent ((hmem o).mpr ho)
    cases o with
    | failed errs t => exact ⟨errs,t,rfl⟩
    | data v t => exact absurd (h e hh.2) (hr e he hh.1.except)
  · intro hall e he hexcept
    obtain ⟨o,ho,hh⟩ := exists_of_forall₂ hrecent.flip he
    obtain ⟨errs,t,rfl⟩ := hall o ((hmem o).mp ho)
    rw [hh.1.except] at hexcept
    cases hexcept

/-- No reader of a ring of this version takes a pointer that is not set. -/
structure PointersSet (ver : ValueList) (r : PollRing) : Prop where
  last : NotNull (isLastAttrAnError r)
  history : ver = .v4 ∨ ver = .v5 → ∀ (type : CmdArgType) (k : SeqKind) (fill : Elt k) (name : String) (n : Nat),
    1 ≤ n → n ≤ r.nbElt → NotNull (getAttrHistory type k fill name r n)

/-- The pointers read are set, but in a ring of IDL 4 whose newest slot only ever held exceptions
while some of the others hold readings. -/
theorem pointers_set (ver : ValueList) (hver : ver ≠ .v2) (log : List (Record (.attr ver))) (hlog : log ≠ []) :
    PointersSet ver (kindRing (.attr ver) depth hd log) ↔
      ver ≠ .v4 ∨ NewestSlotRead ver depth log ∨ ∀ o ∈ lastN depth log, ∃ errs t, o = .failed errs t := by
  have hlast := isLastAttrAnError_notNull ver depth hd log hver hlog
  have hnb := kindRing_nbElt depth hd log
  have hwindow : lastN (kindRing (.attr ver) depth hd log).nbElt log = lastN depth log := by
    rw [hnb,lastN,lastN]
    congr 1
    omega
  cases ver with
  | v2 => exact absurd rfl hver
  | v3 => exact iff_of_true ⟨hlast,fun h => absurd h (by decide)⟩ (.inl (by decide))
  | v5 =>
    refine iff_of_true ⟨hlast,fun _ type k fill name n h1 hn => ?_⟩ (.inl (by decide))
    have hnone : (lastElt (kindRing (.attr .v5) depth hd log)).attrValue4 = none := by
      have hrecent := @recent_other _ depth hd log RingElt.attrValue4 rfl (fun o _ h => by cases o <;> exact h) 1
        (Nat.le_trans h1 hn)
      rw [recent_one] at hrecent
      obtain ⟨o,-,hh⟩ := exists_of_forall₂ hrecent.flip List.mem_cons_self
      exact hh.2
    rw [getAttrHistory_notNull_iff,head_recent _ h1,Option.bind_some,hnone]
    refine readable_of_member depth hd (fun e v h => ?_) hn
    have hv : e.attrValue5 = some v := h
    simp [RingElt.attrVal,hv]
  | v4 =>
    have hmember : ∀ e : RingElt, ∀ v, member (.attr .v4) e = some v → e.attrVal false = .ok v := fun e v h => by
      have hv : e.attrValue4 = some v := h
      simp [RingElt.attrVal,hv]
    have hother : ∀ n, n ≤ (kindRing (.attr .v4) depth hd log).nbElt →
        (Readable true ((kindRing (.attr .v4) depth hd log).recent n) ↔
          ∀ o ∈ lastN n log, ∃ errs t, o = .failed errs t) := fun n hn =>
      readable_iff_failed depth hd rfl (fun o _ h => by cases o <;> exact h)
        (fun e (h : e.attrValue5 = none) => by simp [RingElt.attrVal,h]) hn
    have hnewest := newest_v4_iff depth hd log hlog
    have hpos : 1 ≤ (kindRing (.attr .v4) depth hd log).nbElt := by
      have := List.length_pos_iff.mpr hlog
      omega
    constructor
    · intro h
      refine .inr (or_iff_not_imp_left.mpr fun hno => ?_)
      have hread := h.history (.inl rfl) .devLong .long 0 "" _ hpos (Nat.le_refl _)
      rw [getAttrHistory_notNull_iff,head_recent _ hpos,Option.bind_some] at hread
      have hnone : (lastElt (kindRing (.attr .v4) depth hd log)).attrValue4.isNone = true := by
        rw [Option.isNone_iff_eq_none,← Option.not_isSome_iff_eq_none,hnewest]
        exact hno
      rw [hnone,hother _ (Nat.le_refl _),hwindow] at hread
      exact hread
    · rintro (h | h | h)
      · exact absurd rfl h
      · refine ⟨hlast,fun _ type k fill name n h1 hn => ?_⟩
        rw [getAttrHistory_notNull_iff,head_recent _ h1,Option.bind_some]
        have hsome : (lastElt (kindRing (.attr .v4) depth hd log)).attrValue4.isNone = false :=
          Option.isNone_eq_false_iff.mpr (hnewest.mpr h)
        rw [hsome]
        exact readable_of_member depth hd hmember hn
      · refine ⟨hlast,fun _ type k fill name n h1 hn => ?_⟩
        rw [getAttrHistory_notNull_iff]
        cases ((kindRing (.attr .v4) depth hd log).recent n).head?.bind RingElt.attrValue4 |>.isNone with
        | false => exact readable_of_member depth hd hmember hn
        | true =>
          refine (hother n hn).mpr fun o ho => h o ?_
          have hmem : o ∈ lastN (kindRing (.attr .v4) depth hd log).nbElt log := lastN_subset hn log ho
          exact hwindow ▸ hmem

/-- Polls of an IDL 4 attribute in a ring of depth two: the second one fails, the newest slot with it. -/
def readThenFailed : List (Record (.attr .v4)) :=
  [.data (sample (.seq ⟨.long,[7]⟩)) 1000,.failed [notEnoughData] 2000]

theorem pointers_set_one : PointersSet .v4 (kindRing (.attr .v4) 1 (by decide) readThenFailed) :=
  (pointers_set 1 (by decide) .v4 (by decide) readThenFailed (List.cons_ne_nil _ _)).mpr
    (.inr (.inl ⟨0,by decide,_,_,rfl⟩))

/-- The version is read off the newest slot: the reading of the other one is looked for as IDL 5. -/
theorem failed_newest_slot :
    getAttrHistory .devLong .long 0 "Image" (kindRing (.attr .v4) 2 (by decide) readThenFailed) 2 =
        .error .nullPointer ∧
      ¬PointersSet .v4 (kindRing (.attr .v4) 2 (by decide) readThenFailed) := by
  have hnull : getAttrHistory .devLong .long 0 "Image" (kindRing (.attr .v4) 2 (by decide) readThenFailed) 2 =
      .error .nullPointer := rfl
  exact ⟨hnull,fun h => h.history (.inl rfl) .devLong .long 0 "Image" 2 (by decide) (by decide) hnull⟩

end Versions

end CppTango.Polling
