import CppTango.Db.FileDatabase

namespace CppTango.Db

open CppTango.Lib CppTango.Device

section Names

theorem lowerName_nil {s : String} : lowerName s = [] ↔ s = "" := by
  unfold lowerName
  rw [List.map_eq_nil_iff,String.toList_eq_nil_iff]

/-- Two names are the same when they differ in letter case only, and an empty one is never found. -/
theorem equalsIgnoreCase_iff {s1 s2 : String} :
    equalsIgnoreCase s1 s2 = true ↔ lowerName s1 = lowerName s2 ∧ s1 ≠ "" := by
  have hzip (same : Char × Char → Bool) (hsame : ∀ a b, same (a,b) = decide (a.toLower = b.toLower)) :
      ∀ l l' : List Char, l.length = l'.length →
        ((l.zip l').all same = true ↔ l.map Char.toLower = l'.map Char.toLower) := by
    intro l
    induction l with
    | nil =>
      intro l' h
      rw [List.eq_nil_of_length_eq_zero h.symm]
      simp
    | cons a l ih =>
      intro l' h
      cases l' with
      | nil => cases h
      | cons b l' => simp [hsame,ih l' (Nat.succ.inj h)]
  unfold equalsIgnoreCase lowerName
  split
  next hl =>
    have hr : s1.toList.reverse.length = s2.toList.reverse.length := by simpa using hl
    rw [Bool.and_eq_true,hzip _ (fun _ _ => rfl) _ _ hr,List.map_reverse,List.map_reverse,List.reverse_inj]
    simp [and_comm]
  next hl =>
    constructor
    · intro h
      cases h
    · intro h
      have := congrArg List.length h.1
      simp only [List.length_map] at this
      exact absurd this hl

theorem scan6_numText {n : Nat} (h : n < 10 ^ 6) : scan6 (numText n) = some n := by
  have hlen : (intText n).length ≤ 6 := by
    unfold intText
    rw [if_neg (by omega),Int.natAbs_natCast]
    exact (Nat.length_toDigits_le_iff (by decide) (by decide)).mpr h
  have hdrop : (intText n).dropWhile isSpace = intText n := by
    unfold intText
    rw [if_neg (by omega),Int.natAbs_natCast]
    cases hd : Nat.toDigits 10 n with
    | nil => rfl
    | cons c l =>
      have hc := (digit_not_space (digit_of_mem (n := n) (by rw [hd]; exact List.mem_cons_self))).1
      rw [List.dropWhile_cons_of_neg (by simp [hc])]
  unfold scan6
  rw [toList_numText,hdrop,List.take_of_length_le hlen,readSign_intText]
  have hneg : ¬ (n : Int) < 0 := by omega
  simp [hneg]

end Names

section Props

def TProperty.key (p : TProperty) : List Char := lowerName p.name

/-- Properties as a store keeps them: their names are there once, whatever the letter case. -/
structure PropsOk (props : List TProperty) : Prop where
  names : (props.map TProperty.key).Nodup
  filled : ∀ p ∈ props, p.name ≠ ""
  sized : ∀ p ∈ props, p.value.length < 2 ^ 31

/-- The lists of values that `%6u` can count. -/
def Countable (ds : DbData) : Prop := ∀ d ∈ ds, d.valueString.length < 10 ^ 6

instance (ds : DbData) : Decidable (Countable ds) :=
  inferInstanceAs (Decidable (∀ d ∈ ds, d.valueString.length < 10 ^ 6))

theorem Countable.tail {d : DbDatum} {ds : DbData} (h : Countable (d :: ds)) : Countable ds :=
  fun x hx => h x (List.mem_cons_of_mem _ hx)

theorem picks_hasName {props : List TProperty} (h : ∀ p ∈ props, p.name ≠ "") (name : String) :
    Picks TProperty.key (hasName name) (lowerName name) props := by
  intro p hp
  unfold hasName
  rw [equalsIgnoreCase_iff]
  exact and_iff_left (h p hp)

def setValue (vals : List String) (p : TProperty) : TProperty := { p with value := vals }

theorem key_setValue (vals : List String) (p : TProperty) : (setValue vals p).key = p.key := rfl

/-- One property put into a list. -/
def putOne (props : List TProperty) (d : DbDatum) : List TProperty :=
  putFirst (hasName d.name) (setValue d.valueString) ⟨d.name,d.valueString⟩ props

theorem propsOk_putOne {props : List TProperty} (h : PropsOk props) {d : DbDatum} (hd : d.name ≠ "")
    (hl : d.valueString.length < 10 ^ 6) : PropsOk (putOne props d) := by
  refine ⟨nodup_putFirst (picks_hasName h.filled d.name) (key_setValue _) rfl h.names,?_,?_⟩
  · intro p hp
    rcases mem_putFirst hp with hp | rfl | ⟨q,hq,-,rfl⟩
    · exact h.filled p hp
    · exact hd
    · exact h.filled q hq
  · intro p hp
    have hl' : d.valueString.length < 2 ^ 31 := Nat.lt_trans hl (by decide)
    rcases mem_putFirst hp with hp | rfl | ⟨q,-,-,rfl⟩
    · exact h.sized p hp
    · exact hl'
    · exact hl'

theorem propsOk_putAll {props : List TProperty} (h : PropsOk props) {ds : DbData}
    (hd : ∀ d ∈ ds, d.name ≠ "") (hc : Countable ds) : PropsOk (ds.foldl putOne props) := by
  induction ds generalizing props with
  | nil => exact h
  | cons d ds ih =>
    exact ih (propsOk_putOne h (hd d List.mem_cons_self) (hc d List.mem_cons_self))
      (fun x hx => hd x (List.mem_cons_of_mem _ hx)) hc.tail

/-- Values by name. -/
abbrev PropMap := List Char → Option (List String)

def propMap (props : List TProperty) : PropMap := fun k => (atKey TProperty.key k props).map TProperty.value

def PropMap.put (m : PropMap) (ds : DbData) : PropMap :=
  ds.foldl (fun m d => Function.update m (lowerName d.name) (some d.valueString)) m

def PropMap.delete (m : PropMap) (names : List String) : PropMap :=
  names.foldl (fun m name => Function.update m (lowerName name) none) m

theorem propMap_putOne {props : List TProperty} (h : PropsOk props) (d : DbDatum) :
    propMap (putOne props d) =
      Function.update (propMap props) (lowerName d.name) (some d.valueString) := by
  funext k
  unfold propMap putOne
  rw [atKey_putFirst (picks_hasName h.filled d.name) (key_setValue _) rfl]
  by_cases hk : k = lowerName d.name
  · rw [if_pos hk,hk,Function.update_self]
    cases atKey TProperty.key (lowerName d.name) props <;> rfl
  · rw [if_neg hk,Function.update_of_ne hk]

theorem propMap_putAll {props : List TProperty} (h : PropsOk props) {ds : DbData}
    (hd : ∀ d ∈ ds, d.name ≠ "") (hc : Countable ds) :
    propMap (ds.foldl putOne props) = (propMap props).put ds := by
  induction ds generalizing props with
  | nil => rfl
  | cons d ds ih =>
    rw [List.foldl_cons,ih (propsOk_putOne h (hd d List.mem_cons_self) (hc d List.mem_cons_self))
      (fun x hx => hd x (List.mem_cons_of_mem _ hx)) hc.tail,propMap_putOne h]
    rfl

theorem eraseP_hasName {props : List TProperty} (h : PropsOk props) (name : String) :
    props.eraseP (hasName name) = without TProperty.key (lowerName name) props := by
  rw [← eraseP_eq_without h.names]
  have hp := picks_hasName h.filled name
  clear h
  induction props with
  | nil => rfl
  | cons p props ih =>
    have hiff := hp p List.mem_cons_self
    by_cases hk : p.key = lowerName name
    · rw [List.eraseP_cons_of_pos (hiff.mpr hk),List.eraseP_cons_of_pos (by simpa using hk)]
    · rw [List.eraseP_cons_of_neg (fun he => hk (hiff.mp he)),
        List.eraseP_cons_of_neg (by simpa using hk),ih hp.tail]

theorem propMap_delete {props : List TProperty} (h : PropsOk props) (names : List String) :
    PropsOk (deleteProperties names props) ∧
      propMap (deleteProperties names props) = (propMap props).delete names := by
  induction names generalizing props with
  | nil => exact ⟨h,rfl⟩
  | cons name names ih =>
    have hok : PropsOk (props.eraseP (hasName name)) := by
      rw [eraseP_hasName h]
      exact ⟨nodup_without _ h.names,fun p hp => h.filled p (mem_without.mp hp).1,
        fun p hp => h.sized p (mem_without.mp hp).1⟩
    have hmap : propMap (props.eraseP (hasName name)) =
        Function.update (propMap props) (lowerName name) none := by
      funext k
      unfold propMap
      rw [eraseP_hasName h,atKey_without]
      by_cases hk : k = lowerName name
      · rw [if_pos hk,hk,Function.update_self]
        rfl
      · rw [if_neg hk,Function.update_of_ne hk]
    obtain ⟨h1,h2⟩ := ih hok
    refine ⟨h1,?_⟩
    unfold deleteProperties at h2 ⊢
    rw [List.foldl_cons,h2,hmap]
    rfl

end Props

section PutLoop

theorem strings_append (d : DbDatum) (c : List String) :
    d.strings ++ c = d.name :: numText d.valueString.length :: (d.valueString ++ c) := rfl

/-- The loop over properties puts them one after the other. -/
theorem putProps_eq (stop : Bool) {ds : DbData} (hc : Countable ds) (nValues : Nat)
    (props : List TProperty) :
    putProps stop ds.length nValues props (ds.flatMap DbDatum.strings) = some (ds.foldl putOne props) := by
  induction ds generalizing nValues props with
  | nil => rfl
  | cons d ds ih =>
    rw [List.length_cons,List.flatMap_cons,strings_append,putProps]
    simp only [scan6_numText (hc d List.mem_cons_self),Option.getD_some,takeStrings_append]
    rw [List.foldl_cons]
    by_cases ha : props.any (hasName d.name) = true
    · have hput : putOne props d = updateFirst (hasName d.name) (setValue d.valueString) props := by
        unfold putOne putFirst
        rw [if_pos ha]
      rw [if_pos ha,hput]
      exact ih hc.tail _ _
    · have hput : putOne props d = props ++ [⟨d.name,d.valueString⟩] := by
        unfold putOne putFirst
        rw [if_neg ha]
      rw [if_neg ha,hput,ih hc.tail]
      split
      next hstop =>
        have hnil : ds = [] := by
          cases ds with
          | nil => rfl
          | cons e ds => simp [DbDatum.strings] at hstop
        subst hnil
        rfl
      next => rfl

end PutLoop

section AttrLoop
variable {props : List TProperty}

/-- A stored property with another name stays. -/
theorem scanStored_skip {p : TProperty} {name : String} (h : equalsIgnoreCase p.name name = false)
    (c : List String) (numVals : Nat) (exist : Bool) :
    scanStored (p :: props) (name :: c) numVals exist = (scanStored props (name :: c) numVals exist).map
      (fun x => ({ x.1 with props := p :: x.1.props },x.2)) := by
  have hp : ¬ equalsIgnoreCase p.name name = true := by simp [h]
  cases c with
  | nil => rw [scanStored,if_neg hp]
  | cons s c => rw [scanStored,if_neg hp]

/-- No stored property has the name. -/
theorem scanStored_miss {name : String} {c : List String} {numVals : Nat} {exist : Bool}
    (h : ∀ p ∈ props, equalsIgnoreCase p.name name = false) :
    scanStored props (name :: c) numVals exist = some (⟨props,name :: c,numVals,false⟩,exist) := by
  induction props with
  | nil => rfl
  | cons p props ih =>
    rw [scanStored_skip (h p List.mem_cons_self),ih (fun q hq => h q (List.mem_cons_of_mem _ hq))]
    rfl

/-- The stored properties behind the one of a name. -/
def behind (name : String) (props : List TProperty) : List TProperty :=
  (props.dropWhile (fun p => !hasName name p)).drop 1

/-- The stored property is found, and none behind it has the name that follows in the request. -/
theorem scanStored_hit {d : DbDatum} {next : String} {c : List String} {numVals : Nat} {exist : Bool}
    (hd : d.valueString.length < 10 ^ 6) (hin : props.any (hasName d.name) = true)
    (hnext : ∀ q ∈ behind d.name props, equalsIgnoreCase q.name next = false) :
    scanStored props (d.strings ++ next :: c) numVals exist =
      some (⟨updateFirst (hasName d.name) (setValue d.valueString) props,next :: c,
        d.valueString.length,false⟩,true) := by
  induction props with
  | nil => cases hin
  | cons p props ih =>
    rw [updateFirst]
    by_cases hp : hasName d.name p = true
    · have hp' : equalsIgnoreCase p.name d.name = true := hp
      have hnext' : ∀ q ∈ props, equalsIgnoreCase q.name next = false := by
        simpa [behind,hp] using hnext
      rw [strings_append,scanStored,if_pos hp',if_pos hp]
      simp only [scan6_numText hd,Option.getD_some,takeStrings_append]
      rw [if_neg (by simp),scanStored_miss hnext']
      rfl
    · have hp' : equalsIgnoreCase p.name d.name = false := Bool.eq_false_iff.mpr hp
      have hin' : props.any (hasName d.name) = true := by
        rw [List.any_cons,Bool.eq_false_iff.mpr hp,Bool.false_or] at hin
        exact hin
      have hrec := ih hin' (by simpa [behind,Bool.eq_false_iff.mpr hp] using hnext)
      rw [strings_append] at hrec ⊢
      rw [scanStored_skip hp',if_neg hp,hrec]
      rfl

/-- The name that stands behind the properties in a request. -/
def nextName (ds : DbData) (next : String) : String :=
  match ds with
  | [] => next
  | d :: _ => d.name

theorem nextName_front (ds : DbData) (next : String) (c : List String) :
    ∃ c', ds.flatMap DbDatum.strings ++ next :: c = nextName ds next :: c' := by
  cases ds with
  | nil => exact ⟨c,rfl⟩
  | cons d ds => exact ⟨_,rfl⟩

/-- No property of the request that is stored already is followed by a name stored behind it. -/
def Straight : List TProperty → DbData → String → Prop
  | _,[],_ => True
  | props,d :: ds,next =>
    (∀ q ∈ behind d.name props, equalsIgnoreCase q.name (nextName ds next) = false) ∧
      Straight (putOne props d) ds next

instance decStraight : ∀ (props : List TProperty) (ds : DbData) (next : String),
    Decidable (Straight props ds next)
  | _,[],_ => isTrue trivial
  | props,d :: ds,next => @instDecidableAnd
      (∀ q ∈ behind d.name props, equalsIgnoreCase q.name (nextName ds next) = false)
      (Straight (putOne props d) ds next) _ (decStraight _ ds next)

/-- The properties of an attribute that is not the last of the request. -/
theorem putAttrProps_straight {ds : DbData} (hc : Countable ds) {next : String}
    (hs : Straight props ds next) (c : List String) (numVals : Nat) :
    ∃ numVals', putAttrProps ds.length ⟨props,ds.flatMap DbDatum.strings ++ next :: c,numVals,false⟩ =
      some ⟨ds.foldl putOne props,next :: c,numVals',false⟩ := by
  induction ds generalizing props numVals with
  | nil => exact ⟨numVals,rfl⟩
  | cons d ds ih =>
    obtain ⟨hnext,hrest⟩ := hs
    obtain ⟨c',hc'⟩ := nextName_front ds next c
    have hd := hc d List.mem_cons_self
    have hih := ih hc.tail hrest
    rw [hc'] at hih
    rw [List.length_cons,List.flatMap_cons,List.append_assoc,hc',putAttrProps,List.foldl_cons]
    simp only
    by_cases ha : props.any (hasName d.name) = true
    · have hput : putOne props d = updateFirst (hasName d.name) (setValue d.valueString) props := by
        unfold putOne putFirst
        rw [if_pos ha]
      rw [scanStored_hit hd ha hnext,← hput]
      exact hih _
    · have hput : putOne props d = props ++ [⟨d.name,d.valueString⟩] := by
        unfold putOne putFirst
        rw [if_neg ha]
      have hmiss : ∀ p ∈ props, equalsIgnoreCase p.name d.name = false := by
        intro p hp
        exact Bool.eq_false_iff.mpr (fun he => ha (List.any_eq_true.mpr ⟨p,hp,he⟩))
      have hnew : newProp ⟨props,d.strings ++ nextName ds next :: c',numVals,false⟩ =
          some ⟨putOne props d,nextName ds next :: c',d.valueString.length,false⟩ := by
        unfold newProp
        simp only [strings_append,scan6_numText hd,Option.getD_some,takeStrings_append,hput]
        simp
      rw [strings_append,scanStored_miss hmiss]
      rw [strings_append] at hnew
      simp only [Bool.false_eq_true,if_false,hnew]
      exact hih _

theorem flatMap_strings_nil {ds : DbData} : ds.flatMap DbDatum.strings = [] ↔ ds = [] := by
  cases ds with
  | nil => simp
  | cons d ds => simp [DbDatum.strings]

theorem putOne_cons_ne {p : TProperty} {d : DbDatum} (h : hasName d.name p = false)
    (hin : props.any (hasName d.name) = true) : putOne (p :: props) d = p :: putOne props d := by
  unfold putOne putFirst
  rw [List.any_cons,h,Bool.false_or,if_pos hin,if_pos hin,updateFirst,h,if_neg (by decide)]

theorem any_putOne {d : DbDatum} (hin : props.any (hasName d.name) = true) (name : String) :
    (putOne props d).any (hasName name) = props.any (hasName name) := by
  unfold putOne putFirst
  rw [if_pos hin]
  clear hin
  induction props with
  | nil => rfl
  | cons p props ih =>
    rw [updateFirst]
    split
    · rfl
    · rw [List.any_cons,List.any_cons,ih]

/-- Properties that are all stored behind another one. -/
theorem putAll_cons_ne {p : TProperty} {us : DbData}
    (hne : ∀ u ∈ us, hasName u.name p = false)
    (hin : ∀ u ∈ us, props.any (hasName u.name) = true) :
    us.foldl putOne (p :: props) = p :: us.foldl putOne props := by
  induction us generalizing props with
  | nil => rfl
  | cons u us ih =>
    have hu := hin u List.mem_cons_self
    rw [List.foldl_cons,List.foldl_cons,putOne_cons_ne (hne u List.mem_cons_self) hu]
    apply ih
    · exact fun v hv => hne v (List.mem_cons_of_mem _ hv)
    · intro v hv
      rw [any_putOne hu]
      exact hin v (List.mem_cons_of_mem _ hv)

theorem stored_elsewhere {p : TProperty} (h : PropsOk (p :: props)) {name : String}
    (hin : props.any (hasName name) = true) : hasName name p = false := by
  rw [Bool.eq_false_iff]
  intro hp
  obtain ⟨q,hq,hqn⟩ := List.any_eq_true.mp hin
  have h1 := (equalsIgnoreCase_iff.mp hp).1
  have h2 := (equalsIgnoreCase_iff.mp hqn).1
  apply (List.nodup_cons.mp h.names).1
  have hk : p.key = q.key := h1.trans h2.symm
  rw [hk]
  exact List.mem_map_of_mem hq

/-- The loop over the stored properties in the last attribute of a request: it puts a number of the
properties that follow, which are all stored. -/
theorem scanStored_last (h : PropsOk props) {ds : DbData} (hne : ds ≠ []) (hc : Countable ds)
    (numVals : Nat) (exist : Bool) :
    ∃ us ds' numVals', ds = us ++ ds' ∧ (∀ u ∈ us, props.any (hasName u.name) = true) ∧
      (us = [] → ∀ d ∈ ds.head?, props.any (hasName d.name) = false) ∧
      scanStored props (ds.flatMap DbDatum.strings) numVals exist =
        some (⟨us.foldl putOne props,ds'.flatMap DbDatum.strings,numVals',decide (ds' = [])⟩,
          exist || decide (us ≠ [])) := by
  induction props generalizing ds numVals exist with
  | nil =>
    refine ⟨[],ds,numVals,rfl,fun u hu => (by cases hu),fun _ d _ => rfl,?_⟩
    rw [scanStored]
    simp [hne]
  | cons p props ih =>
    have hok : PropsOk props :=
      ⟨(List.nodup_cons.mp h.names).2,fun q hq => h.filled q (List.mem_cons_of_mem _ hq),
        fun q hq => h.sized q (List.mem_cons_of_mem _ hq)⟩
    obtain ⟨d,ds,rfl⟩ := List.exists_cons_of_ne_nil hne
    have hd := hc d List.mem_cons_self
    rw [List.flatMap_cons,strings_append]
    by_cases hp : hasName d.name p = true
    · have hput : putOne (p :: props) d = setValue d.valueString p :: props := by
        unfold putOne putFirst
        rw [List.any_cons,hp,Bool.true_or,if_pos rfl,updateFirst,if_pos hp]
      have hp' : equalsIgnoreCase p.name d.name = true := hp
      rw [scanStored,if_pos hp']
      simp only [scan6_numText hd,Option.getD_some,takeStrings_append]
      by_cases hds : ds = []
      · subst hds
        refine ⟨[d],[],d.valueString.length,rfl,?_,fun he => (by cases he),?_⟩
        · intro u hu
          rw [List.mem_singleton] at hu
          rw [hu,List.any_cons,hp,Bool.true_or]
        · rw [List.flatMap_nil,if_pos rfl,List.foldl_cons,List.foldl_nil,hput]
          simp [setValue]
      · obtain ⟨us,ds',numVals',he,hin,-,hscan⟩ := ih hok hds hc.tail d.valueString.length true
        have hother : ∀ u ∈ us, hasName u.name (setValue d.valueString p) = false :=
          fun u hu => stored_elsewhere h (hin u hu)
        refine ⟨d :: us,ds',numVals',by rw [he]; rfl,?_,fun he => (by cases he),?_⟩
        · intro u hu
          rcases List.mem_cons.mp hu with rfl | hu
          · rw [List.any_cons,hp,Bool.true_or]
          · rw [List.any_cons,hin u hu,Bool.or_true]
        · rw [if_neg (fun hn => hds (flatMap_strings_nil.mp hn)),hscan,List.foldl_cons,hput,
            putAll_cons_ne hother hin]
          simp [setValue]
    · have hp' : hasName d.name p = false := Bool.eq_false_iff.mpr hp
      obtain ⟨us,ds',numVals',he,hin,hmiss,hscan⟩ := ih hok hne hc numVals exist
      rw [List.flatMap_cons,strings_append] at hscan
      refine ⟨us,ds',numVals',he,?_,?_,?_⟩
      · intro u hu
        rw [List.any_cons,hin u hu,Bool.or_true]
      · intro hus x hx
        cases hx
        rw [List.any_cons,hp',hmiss hus d rfl]
        rfl
      · rw [scanStored_skip hp',hscan,putAll_cons_ne (fun u hu => stored_elsewhere h (hin u hu)) hin]
        rfl

/-- The properties of the last attribute of a request, in whatever order. -/
theorem putAttrProps_last {ds : DbData} (h : PropsOk props) (hne : ds ≠ []) (hc : Countable ds)
    (hf : ∀ d ∈ ds, d.name ≠ "") {n : Nat} (hn : ds.length ≤ n) (numVals : Nat) :
    ∃ a, putAttrProps n ⟨props,ds.flatMap DbDatum.strings,numVals,false⟩ = some a ∧
      a.props = ds.foldl putOne props ∧ a.done = true := by
  induction n generalizing props ds numVals with
  | zero =>
    have := List.eq_nil_of_length_eq_zero (Nat.le_zero.mp hn)
    exact absurd this hne
  | succ n ih =>
    obtain ⟨us,ds',numVals',he,hin,hmiss,hscan⟩ := scanStored_last h hne hc numVals false
    rw [putAttrProps]
    simp only [hscan,Bool.false_or]
    by_cases hds' : ds' = []
    · rw [if_pos (by simp [hds'])]
      refine ⟨_,rfl,?_,by simp [hds']⟩
      rw [he,hds',List.append_nil]
    · rw [if_neg (by simp [hds'])]
      by_cases hus : us = []
      · subst hus
        rw [if_neg (by simp)]
        rw [List.nil_append] at he
        subst he
        obtain ⟨d,ds,rfl⟩ := List.exists_cons_of_ne_nil hne
        have hd := hc d List.mem_cons_self
        have hput : putOne props d = props ++ [⟨d.name,d.valueString⟩] := by
          unfold putOne putFirst
          rw [hmiss rfl d rfl,if_neg (by decide)]
        have hnew : newProp ⟨props,(d :: ds).flatMap DbDatum.strings,numVals',false⟩ =
            some ⟨putOne props d,ds.flatMap DbDatum.strings,d.valueString.length,
              decide (ds.flatMap DbDatum.strings = [])⟩ := by
          unfold newProp
          simp only [List.flatMap_cons,strings_append,scan6_numText hd,Option.getD_some,
            takeStrings_append,hput]
        simp only [hds',decide_false,List.foldl_nil,hnew]
        by_cases hds : ds = []
        · subst hds
          exact ⟨_,rfl,rfl,rfl⟩
        · have hnil : ¬ ds.flatMap DbDatum.strings = [] := fun hn => hds (flatMap_strings_nil.mp hn)
          simp only [hnil,decide_false,Bool.false_eq_true,if_false]
          exact ih (propsOk_putOne h (hf d List.mem_cons_self) hd) hds hc.tail
            (fun x hx => hf x (List.mem_cons_of_mem _ hx)) (Nat.le_of_succ_le_succ hn) _
      · rw [if_pos (by simpa using hus),hds' |> decide_eq_false]
        have hlen : 0 < us.length := List.length_pos_iff.mpr hus
        rw [he,List.length_append] at hn
        rw [he,List.foldl_append]
        apply ih
        · apply propsOk_putAll h
          · exact fun u hu => hf u (by rw [he]; exact List.mem_append_left _ hu)
          · exact fun u hu => hc u (by rw [he]; exact List.mem_append_left _ hu)
        · exact hds'
        · exact fun u hu => hc u (by rw [he]; exact List.mem_append_right _ hu)
        · exact fun u hu => hf u (by rw [he]; exact List.mem_append_right _ hu)
        · omega

end AttrLoop
end CppTango.Db
