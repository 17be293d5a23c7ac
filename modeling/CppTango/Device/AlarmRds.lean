import CppTango.Device.Alarm
import Mathlib.Algebra.Order.Group.Unbundled.Int

namespace CppTango.Device.Alarm

open CppTango.Lib IntType

section Element
variable {t : IntType} {x deltaVal lastVal currVal : Int}

theorem computed_ok (h : t.Holds x) : computed t x = .ok x := by
  rw [computed,IntType.computed_of_holds h]
  rfl

theorem ite_abs (a b : Int) : (if b < a then a - b else b - a) = |a - b| := by
  split
  · exact (abs_of_nonneg (by omega)).symm
  · rw [abs_sub_comm]
    exact (abs_of_nonneg (by omega)).symm

theorem delta_reached (h : |lastVal - currVal| ≤ t.max) :
    Decides (deltaReached t deltaVal lastVal currVal) (deltaVal ≤ |lastVal - currVal|) := by
  have hh : t.Holds |lastVal - currVal| := ⟨t.min_nonpos.trans (abs_nonneg _),h⟩
  rw [deltaReached,ite_abs,computed_ok hh]
  exact ⟨_,rfl,decide_eq_true_iff⟩

/-- The test of one element is exact at the limits of the type too, and overflows nowhere. -/
theorem out_of_range (hl : t.Holds lastVal) (hc : t.Holds currVal) (hd : deltaVal ≤ t.max) :
    Decides (outOfRange t deltaVal lastVal currVal) (deltaVal ≤ |lastVal - currVal|) := by
  obtain ⟨hl1,hl2⟩ := hl
  obtain ⟨hc1,hc2⟩ := hc
  rw [outOfRange]
  cases hs : t.signed with
  | false =>
    have h0 := IntType.min_unsigned hs
    exact delta_reached (abs_le.mpr ⟨by omega,by omega⟩)
  | true =>
    have h0 := IntType.min_signed hs
    rw [if_pos rfl]
    split
    · have hlim : t.Holds (t.max + lastVal) := ⟨by omega,by omega⟩
      rw [computed_ok hlim]
      exact Decides.orElse (fun hfar => le_abs.mpr (Or.inr (by omega)))
        (fun hnear => delta_reached (abs_le.mpr ⟨by omega,by omega⟩))
    · have hlim : t.Holds (t.min + lastVal) := ⟨by omega,by omega⟩
      rw [computed_ok hlim]
      exact Decides.orElse (fun hfar => le_abs.mpr (Or.inl (by omega)))
        (fun hnear => delta_reached (abs_le.mpr ⟨by omega,by omega⟩))

end Element

section Loop
variable {k : IntKind} {arrayVal valSeq : List Int} {dataFormat : AttrDataFormat} {deltaVal : Int}

/-- An element of a value sequence is too far from the one set at its index; of a scalar the first
element only counts. -/
def FarAt (dataFormat : AttrDataFormat) (deltaVal : Int) (valSeq arrayVal : List Int) (i : Nat) : Prop :=
  (dataFormat = .scalar → i = 0) ∧
    ∃ x y, valSeq[i]? = some x ∧ arrayVal[i]? = some y ∧ deltaVal ≤ |y - x|

/-- The positions the loop compares. -/
theorem compared (hne : dataFormat = .scalar → valSeq ≠ []) {i : Nat} :
    i < min (if dataFormat = .scalar then 1 else valSeq.length) arrayVal.length ↔
      (dataFormat = .scalar → i = 0) ∧ i < valSeq.length ∧ i < arrayVal.length := by
  by_cases hs : dataFormat = .scalar
  · have hpos := List.length_pos_of_ne_nil (hne hs)
    simp only [hs,if_true,forall_const]
    omega
  · simp [hs]

theorem compare_decides (hs : ∀ y ∈ arrayVal, k.type.Holds y) (hr : ∀ x ∈ valSeq, k.type.Holds x)
    (hd : deltaVal ≤ k.type.max) {i : Nat} (h1 : i < valSeq.length) (h2 : i < arrayVal.length) :
    Decides (do
        let lastVal ← intAt (some (.ints arrayVal)) i
        let currVal ← intAt (some (.ints valSeq)) i
        outOfRange k.type deltaVal lastVal currVal)
      (deltaVal ≤ |arrayVal[i] - valSeq[i]|) := by
  have hy := List.getElem?_eq_getElem h2
  have hx := List.getElem?_eq_getElem h1
  simp only [intAt,hx,hy,Option.elim]
  exact out_of_range (hs _ (List.getElem_mem h2)) (hr _ (List.getElem_mem h1)) hd

theorem check_rds_out_of_range (hs : ∀ y ∈ arrayVal, k.type.Holds y) (hr : ∀ x ∈ valSeq, k.type.Holds x)
    (hd : deltaVal ≤ k.type.max) (hne : dataFormat = .scalar → valSeq ≠ []) (r : Reading) :
    ∃ hit, checkRdsOutOfRange k arrayVal valSeq dataFormat deltaVal r = .ok (raisedRds hit r) ∧
      (hit = true ↔ ∃ i, FarAt dataFormat deltaVal valSeq arrayVal i) := by
  have hloop := searchFrom_decides (i := 0)
    (n := min (if dataFormat = .scalar then 1 else valSeq.length) arrayVal.length)
    (p := FarAt dataFormat deltaVal valSeq arrayVal) (fun i _ hi => by
      obtain ⟨hsc,h1,h2⟩ := (compared hne).mp (Nat.zero_add _ ▸ hi)
      refine (compare_decides hs hr hd h1 h2).congr ⟨fun hfar => ?_,?_⟩
      · exact ⟨hsc,_,_,List.getElem?_eq_getElem h1,List.getElem?_eq_getElem h2,hfar⟩
      · rintro ⟨_,x,y,hx,hy,hfar⟩
        cases (List.getElem?_eq_getElem h1).symm.trans hx
        cases (List.getElem?_eq_getElem h2).symm.trans hy
        exact hfar)
  obtain ⟨hit,hok,hiff⟩ := hloop
  refine ⟨hit,?_,hiff.trans ⟨fun ⟨i,_,_,hfar⟩ => ⟨i,hfar⟩,?_⟩⟩
  · rw [checkRdsOutOfRange,hok]
    rfl
  · rintro ⟨i,hsc,x,y,hx,hy,hfar⟩
    have h1 := (List.getElem?_eq_some_iff.mp hx).1
    have h2 := (List.getElem?_eq_some_iff.mp hy).1
    exact ⟨i,i.zero_le,by rw [Nat.zero_add]; exact (compared hne).mpr ⟨hsc,h1,h2⟩,
      hsc,x,y,hx,hy,hfar⟩

end Loop

@[simp] theorem raisedRds_fst (hit : Bool) (r : Reading) : (raisedRds hit r).1 = hit := by
  cases hit <;> rfl

section Appended
variable {dataFormat : AttrDataFormat} {deltaVal : Int} {r s : List Int}

/-- A read value is too far from the one set at its index. -/
def Differs (deltaVal : Int) (r s : List Int) : Prop :=
  ∃ (i : Nat) (x y : Int), r[i]? = some x ∧ s[i]? = some y ∧ deltaVal ≤ |x - y|

/-- The set values put behind `n` read ones come to stand at other indexes than their own; two set
values `n` places apart are too far from each other. -/
def SetsDiffer (deltaVal : Int) (n : Nat) (s : List Int) : Prop :=
  ∃ (j : Nat) (x y : Int), s[j]? = some x ∧ s[n + j]? = some y ∧ deltaVal ≤ |x - y|

theorem far_appended (hsc : dataFormat = .scalar → r.length = 1) :
    (∃ i, FarAt dataFormat deltaVal (r ++ s) s i) ↔
      Differs deltaVal r s ∨ dataFormat ≠ .scalar ∧ SetsDiffer deltaVal r.length s := by
  constructor
  · rintro ⟨i,h0,x,y,hx,hy,hfar⟩
    rw [abs_sub_comm] at hfar
    by_cases hi : i < r.length
    · rw [List.getElem?_append_left hi] at hx
      exact Or.inl ⟨i,x,y,hx,hy,hfar⟩
    · rw [List.getElem?_append_right (by omega)] at hx
      refine Or.inr ⟨fun h => ?_,i - r.length,x,y,hx,?_,hfar⟩
      · have := hsc h
        have := h0 h
        omega
      · rwa [Nat.add_sub_cancel' (by omega)]
  · rintro (⟨i,x,y,hx,hy,hfar⟩ | ⟨hn,j,x,y,hx,hy,hfar⟩)
    · have hi := (List.getElem?_eq_some_iff.mp hx).1
      refine ⟨i,fun h => ?_,x,y,?_,hy,abs_sub_comm x y ▸ hfar⟩
      · have := hsc h
        omega
      · rwa [List.getElem?_append_left hi]
    · refine ⟨r.length + j,fun h => absurd h hn,x,y,?_,hy,abs_sub_comm x y ▸ hfar⟩
      rwa [List.getElem?_append_right (by omega),Nat.add_sub_cancel_left]

end Appended

section Claim
variable {a : Attribute} {w : Written} {k : IntKind} {r s : List k.type.Val} {delta : k.type.Val}
  {now : Int} {rd : Reading}

/-- The answer says whether read values differ from set ones, the alarm is raised with it, and
nothing else changes. -/
def RdsExact (o : Except Stop (Bool × Reading)) (rd : Reading) (differs : Prop) : Prop :=
  ∃ ret, o = .ok (raisedRds ret rd) ∧ (ret = true ↔ differs)

/-- The set values that stand in the sequence behind the read ones are compared as if they had been
read: the alarm is exact unless that finds a difference where the read values show none. -/
theorem rds_alarm_exact (ht : a.dataType = .int k) (hw : a.written = some w)
    (hs : w.arrayVal = ints s) (hdelta : w.deltaVal = delta.val) (hset : w.writeSec ≠ 0)
    (helapsed : w.deltaT * 1000000 ≤ now - (w.writeSec * 1000000000 + w.writeUsec * 1000))
    (hscalar : a.dataFormat = .scalar → r.length = 1) (hv : rd.value = some (.ints (ints r))) :
    RdsExact (checkRdsAlarm a now (addWriteValue w rd)) (addWriteValue w rd)
        (Differs delta.val (ints r) (ints s)) ↔
      a.dataFormat = .scalar ∨ Differs delta.val (ints r) (ints s) ∨
        ¬SetsDiffer delta.val r.length (ints s) := by
  have hboth : ∀ x ∈ ints r ++ ints s, k.type.Holds x := by
    intro x hx
    exact (List.mem_append.mp hx).elim holds_of_mem_ints holds_of_mem_ints
  have hval : (addWriteValue w rd).value = some (.ints (ints r ++ ints s)) := by
    rw [addWriteValue,hv,hs]
  have hlen : a.dataFormat = .scalar → (ints r).length = 1 := by
    rw [length_ints]
    exact hscalar
  have hcode : checkRdsAlarm a now (addWriteValue w rd) =
      checkRdsOutOfRange k (ints s) (ints r ++ ints s) a.dataFormat
        delta.val (addWriteValue w rd) := by
    rw [checkRdsAlarm,hw]
    simp only [if_neg hset,if_pos helapsed,ht,hval,hs,hdelta]
  have hne : a.dataFormat = .scalar → ints r ++ ints s ≠ [] := by
    intro h he
    have hr := (List.append_eq_nil_iff.mp he).1
    rw [hr] at hlen
    exact absurd (hlen h) (by simp)
  obtain ⟨hit,hok,hiff⟩ := check_rds_out_of_range (k := k) (fun _ => holds_of_mem_ints) hboth
    delta.property.2 hne (addWriteValue w rd)
  rw [far_appended hlen,length_ints] at hiff
  rw [hcode,hok]
  constructor
  · rintro ⟨ret,he,hret⟩
    have heq : hit = ret := by
      have hfst := congrArg Prod.fst (Except.ok.inj he)
      rwa [raisedRds_fst,raisedRds_fst] at hfst
    subst heq
    tauto
  · intro hcond
    exact ⟨hit,rfl,hiff.trans (by tauto)⟩

/-- One value was read and two were set, -/
def spectrum : Attribute where
  name := "Spectrum"
  dataType := .int .short
  dataFormat := .spectrum
  writable := .readWrite
  isFwd := false
  alarmConf := fun f => f = .rds
  minAlarm := 0
  maxAlarm := 0
  minWarning := 0
  maxWarning := 0
  written := some ⟨1,0,[0,5],⟨"",[]⟩,3,0⟩

def zeroRead : Reading := ⟨some (.ints [0]),1,.valid,fun _ => false⟩

/-- the first as it was read: the alarm comes from the two set values. -/
theorem set_values_compared :
    ¬RdsExact (checkRdsAlarm spectrum 2000000000 (addWriteValue ⟨1,0,[0,5],⟨"",[]⟩,3,0⟩ zeroRead))
      (addWriteValue ⟨1,0,[0,5],⟨"",[]⟩,3,0⟩ zeroRead) (Differs 3 [0] [0,5]) := by
  rintro ⟨ret,he,hret⟩
  have hraised : ret = true := (raisedRds_fst ret _).symm.trans (congrArg Prod.fst (Except.ok.inj he)).symm
  obtain ⟨i,x,y,hx,hy,hfar⟩ := hret.mp hraised
  cases i with
  | zero =>
    cases hx
    cases hy
    exact absurd hfar (by decide)
  | succ i => cases hx

theorem set_values_compared_when :
    RdsExact (checkRdsAlarm spectrum 2000000000 (addWriteValue ⟨1,0,[0,5],⟨"",[]⟩,3,0⟩ zeroRead))
        (addWriteValue ⟨1,0,[0,5],⟨"",[]⟩,3,0⟩ zeroRead) (Differs 3 [0] [0,5]) ↔
      AttrDataFormat.spectrum = .scalar ∨ Differs 3 [0] [0,5] ∨ ¬SetsDiffer 3 1 [0,5] :=
  @rds_alarm_exact spectrum ⟨1,0,[0,5],⟨"",[]⟩,3,0⟩ .short [⟨0,by decide⟩]
    [⟨0,by decide⟩,⟨5,by decide⟩] ⟨3,by decide⟩ 2000000000 zeroRead
    rfl rfl rfl rfl (by decide) (by decide) (fun h => nomatch h) rfl

end Claim

end CppTango.Device.Alarm
