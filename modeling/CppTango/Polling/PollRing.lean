import CppTango.Data
import CppTango.Lib.Ring
import CppTango.Lib.Runs

namespace CppTango.Polling

open Lib

/-- Ways a reader of the polling buffers ends other than by returning. -/
inductive Fault
  /-- dereference of a pointer that was never set -/
  | nullPointer
  /-- index outside a sequence -/
  | outOfBounds
  /-- accessor of another member of the union -/
  | badUnionAccess
  /-- use of the pointer an `Any` extraction did not set -/
  | extractionFailed
  /-- `API_CmdArgumentTypeNotSupported` -/
  | typeNotSupported
  /-- `API_WrongHistoryDataBuffer` -/
  | wrongHistoryDataBuffer
deriving DecidableEq, Repr

/-- The first element of an attribute value list, in any IDL version. -/
structure AttributeValue where
  name : String
  value : AttrValUnion
  quality : AttrQuality
  time : TimeVal
  rDim : AttributeDim
  wDim : AttributeDim
  errList : DevErrorList
deriving DecidableEq

/-- What a polled command returned, as its `Any` holds it. -/
inductive CmdAny
  | scalar (k : SeqKind) (x : Elt k)
  | array (s : Seq)
  /-- a `DevVarLongStringArray` or `DevVarDoubleStringArray` -/
  | strings (nums : Seq) (svalue : List String)
deriving DecidableEq

structure RingElt where
  cmdResult : Option CmdAny := none
  attrValue : Option AttributeValue := none
  attrValue3 : Option AttributeValue := none
  attrValue4 : Option AttributeValue := none
  attrValue5 : Option AttributeValue := none
  except : Option DevErrorList := none
  /-- wall clock date, in nanoseconds -/
  when : Nat := 0
deriving DecidableEq

abbrev PollRing := Lib.Ring RingElt

def pollRing (maxSize : Nat) (h : 0 < maxSize) : PollRing := Ring.make maxSize {} h

/-- The IDL version of the attribute value list an insertion passes. -/
inductive ValueList
  | v2 | v3 | v4 | v5
deriving DecidableEq, Repr

/-- What each insertion does to the slot at the insertion index. `Ring.store` applies it
there and advances the indexes. -/
def insertCmdData (any : CmdAny) (t : Nat) (e : RingElt) : RingElt :=
  { e with cmdResult := some any, except := none, when := t }

/-- Only the member of the version in use is replaced. -/
def insertAttrData (ver : ValueList) (val : AttributeValue) (t : Nat) (e : RingElt) : RingElt :=
  match ver with
  | .v2 => { e with attrValue := some val, except := none, when := t }
  | .v3 => { e with attrValue3 := some val, except := none, when := t }
  | .v4 => { e with attrValue4 := some val, except := none, when := t }
  | .v5 => { e with attrValue5 := some val, except := none, when := t }

/-- An exception clears the command result and the IDL 2 value, and leaves the values
of the later versions in the slot. -/
def insertExcept (ex : DevErrorList) (t : Nat) (e : RingElt) : RingElt :=
  { e with except := some ex, attrValue := none, cmdResult := none, when := t }

def getNbElt (r : PollRing) : Nat := r.nbElt

def makeTimeVal (ns : Nat) : TimeVal where
  tvSec := (ns / 1000000000 : Nat)
  tvUsec := (ns % 1000000000 / 1000 : Nat)
  tvNsec := (ns % 1000000000 % 1000 : Nat)

def orFault (f : Fault) : Option α → Except Fault α
  | some a => .ok a
  | none => .error f

theorem or_fault_ok (f : Fault) (o : Option α) (a : α) : orFault f o = .ok a ↔ o = some a := by
  cases o <;> simp [orFault]

/-- `array[length - 2].nb_elt++`, an index below zero while the table is empty. -/
def growLast (t : RunTable α) : Except Fault (RunTable α) :=
  match t.grow with
  | some t' => .ok t'
  | none => .error .outOfBounds

def noteQuality (t : RunTable AttrQuality) (last q : AttrQuality) (start : Nat) :
    Except Fault (RunTable AttrQuality) :=
  if t.vals.length + 1 = 1 ∨ q ≠ last then .ok (t.push q start) else growLast t

/-- Dimensions in the integer type in which they are compared. -/
def AttributeDim.pair (d : AttributeDim) : Int × Int := (d.dimX,d.dimY)

def noteDim (t : RunTable AttributeDim) (last : Int × Int) (d : AttributeDim) (start : Nat) :
    Except Fault (RunTable AttributeDim) :=
  if AttributeDim.pair d = last then growLast t else .ok (t.push d start)

/-- A new error list opens a run unless it repeats the last one noted and the previous
record, of whatever kind, had no data. -/
def noteErrors (t : RunTable DevErrorList) (previousNoData : Bool) (last errs : DevErrorList)
    (start : Nat) : Except Fault (RunTable DevErrorList) :=
  let newErr := if previousNoData then errorsDiffer errs last else true
  if newErr then .ok (t.push errs start) else growLast t

theorem snoc_inj {us : List α} (h : xs ++ [a] = us ++ [b]) : a = b := by
  simpa using (List.append_inj' h rfl).2

theorem note_quality (h : Encodes n (qs.map some) t)
    (hl : ∀ us q', qs = us ++ [q'] → last = q') (hn : qs.length < n) (q : AttrQuality) :
    ∃ t', noteQuality t last q (n - (qs.length+1)) = .ok t' ∧ Encodes n ((qs ++ [q]).map some) t' := by
  have hpush := h.push (by simpa using hn) q
  simp only [List.length_map] at hpush
  simp only [List.map_append,List.map_cons,List.map_nil]
  by_cases hc : t.vals.length + 1 = 1 ∨ q ≠ last
  · exact ⟨_,by rw [noteQuality,if_pos hc],hpush⟩
  · obtain ⟨hne,rfl⟩ : t.vals ≠ [] ∧ q = last := by
      simpa [not_or] using hc
    rcases List.eq_nil_or_concat qs with rfl | ⟨us,q',rfl⟩
    · rw [h.blank (by simp)] at hne
      exact absurd rfl hne
    · rw [List.concat_eq_append] at *
      obtain rfl := hl us q' rfl
      rw [List.map_append] at h
      obtain ⟨t',hg,he⟩ := h.grow
      exact ⟨t',by rw [noteQuality,if_neg hc,growLast,hg],by simpa using he⟩

/-- No dimension equals the pair of -1 the comparison starts from. -/
theorem note_dim (h : Encodes n (ds.map some) t) (h0 : ds = [] → last = (-1,-1))
    (hl : ∀ us d, ds = us ++ [d] → last = AttributeDim.pair d)
    (hn : ds.length < n) (d : AttributeDim) :
    ∃ t', noteDim t last d (n - (ds.length+1)) = .ok t' ∧ Encodes n ((ds ++ [d]).map some) t' := by
  have hpush := h.push (by simpa using hn) d
  simp only [List.length_map] at hpush
  simp only [List.map_append,List.map_cons,List.map_nil]
  by_cases hc : AttributeDim.pair d = last
  · rcases List.eq_nil_or_concat ds with rfl | ⟨us,d',rfl⟩
    · rw [h0 rfl] at hc
      simp only [AttributeDim.pair,Prod.mk.injEq] at hc
      omega
    · rw [List.concat_eq_append] at *
      have hd : d = d' := by
        have he := hl us d' rfl
        rw [← hc] at he
        simp only [AttributeDim.pair,Prod.mk.injEq] at he
        obtain ⟨x,y⟩ := d
        obtain ⟨x',y'⟩ := d'
        simp only [AttributeDim.mk.injEq] at he ⊢
        omega
      subst d'
      rw [List.map_append] at h
      obtain ⟨t',hg,he⟩ := h.grow
      exact ⟨t',by rw [noteDim,if_pos hc,growLast,hg],by simpa using he⟩
  · exact ⟨_,by rw [noteDim,if_neg hc],hpush⟩

/-- A failed record is noted rightly unless it repeats a list noted before a gap. -/
theorem note_errors (h : Encodes n vs t) (hn : vs.length < n)
    (hs : previousNoData = true → e = last → ∃ us, vs = us ++ [some e]) :
    ∃ t', noteErrors t previousNoData last e (n - (vs.length+1)) = .ok t' ∧
      Encodes n (vs ++ [some e]) t' := by
  by_cases hold : previousNoData = true ∧ e = last
  · obtain ⟨rfl,rfl⟩ := hold
    obtain ⟨us,rfl⟩ := hs rfl rfl
    obtain ⟨t',hg,he⟩ := h.grow
    have hsame : errorsDiffer e e = false := by simpa using (errors_differ_iff e e).not
    exact ⟨t',by simp [noteErrors,hsame,growLast,hg],he⟩
  · have hnew : (if previousNoData = true then errorsDiffer e last else true) = true := by
      split
      · rename_i hp
        exact (errors_differ_iff _ _).mpr (fun hc => hold ⟨hp,hc⟩)
      · rfl
    exact ⟨_,by simp only [noteErrors,hnew,if_true],h.push hn e⟩

end CppTango.Polling
