import CppTango.Device.ReadMutex
import CppTango.Device.ReadSpec

namespace CppTango.Device.Read

open CppTango.Lib LockOp

variable {α : Type} {S : Serial} {idl : Nat}

section Attribute
variable {att : Attribute α} {r : Reading α} {b c : Bool} {i : Nat}

/-- The last pass lets the mutex of an attribute without errors go. -/
def LetsGo (att : Attribute α) (r : Reading α) : Prop :=
  if r.quality = .invalid ∨ r.value = none then att.writable ≠ .write
  else ∃ seq, addWriteValue att (r.value.getD []) = .ok seq

/-- What all passes together do with the mutex of an attribute. -/
def ownOps (S : Serial) (idl : Nat) (att : Attribute α) (b c : Bool) (i : Nat) (r : Reading α) :
    List (LockOp Nat) :=
  let p := if b then lockedRead S idl att r else ([],(none,r))
  let q := if c then lockedRvalue S idl att p.2.2 else ([],(none,p.2.2))
  p.1 ++ q.1 ++ if (q.2.1.or p.2.1).getD [] = [] then lockedReply S idl att i q.2.2 else []

/-- When an attribute that is read keeps its mutex in order: `is_allowed` does not throw, the set
value of one that failed to be read does not fail too, and the last pass lets the mutex go if and
only if nothing failed before. -/
structure MutexKept (S : Serial) (att : Attribute α) (c : Bool) (r : Reading α) : Prop where
  isAllowed : S.isAllowedThrows att.name = none
  once : att.writable = .readWithWrite → (readAtt att r).1 ≠ none →
    (setRvalueAtt att (readAtt att r).2).1 = none
  passed : (readAlone att true c r).1 = none → LetsGo att (readAlone att true c r).2
  unnamed : (readAlone att true c r).1 = some [] → ¬LetsGo att (readAlone att true c r).2

/-- The two lists an attribute is in. -/
structure Lists (att : Attribute α) (b c : Bool) : Prop where
  inRead : b = true ↔ att.writable ≠ .write ∨ att.isFwdAtt = true
  both : att.writable = .readWithWrite → c = true
  inWrite : b = true → c = true → att.writable = .readWrite ∨ att.writable = .readWithWrite

theorem lists_wanted {ind : Nat} (h : wantedAtt ind att = .att ind b c) : Lists att b c := by
  unfold wantedAtt at h
  cases hw : att.writable with
  | readWrite =>
    rw [hw] at h
    cases h
    exact ⟨by simp [hw],fun _ => rfl,fun _ _ => Or.inl hw⟩
  | readWithWrite =>
    rw [hw] at h
    cases h
    exact ⟨by simp [hw],fun _ => rfl,fun _ _ => Or.inr hw⟩
  | read =>
    rw [hw] at h
    cases h
    exact ⟨by simp [hw],by simp [hw],fun _ hc => nomatch hc⟩
  | write =>
    rw [hw] at h
    cases hf : att.isFwdAtt with
    | true =>
      simp only [hf,if_true] at h
      cases h
      exact ⟨by simp [hf],by simp [hw],fun _ hc => nomatch hc⟩
    | false =>
      simp only [hf] at h
      cases h
      exact ⟨by simp [hw,hf],by simp [hw],fun hb => nomatch hb⟩

section Kernel
variable (hk : S.attrSerialModel att.name = .attrByKernel) (hidl : idl = 4 ∨ idl = 5)
include hk hidl

theorem kernelOps_eq (ops : List (LockOp Nat)) : kernelOps S idl att ops = ops := if_pos ⟨hk,hidl⟩

/-- The last pass releases the mutex or hands it over, or leaves it. -/
theorem reply_ops (hb : att.writable ≠ .write ∨ att.isFwdAtt = true) :
    ∃ op : LockOp Nat, op.Allowed (· = i) true ∧ ¬op.Allowed (· = i) false ∧ op.holds = false ∧
      (LetsGo att r → lockedReply S idl att i r = [op]) ∧ (¬LetsGo att r → lockedReply S idl att i r = []) := by
  by_cases hv : r.quality = .invalid ∨ r.value = none
  · have hops : lockedReply S idl att i r = if att.writable ≠ .write then [.unlock] else [] := by
      unfold lockedReply
      simp only [kernelOps_eq hk hidl]
      by_cases hq : r.quality = .invalid
      · simp [hq]
      · simp [hq,hv.resolve_left hq]
    rw [LetsGo,if_pos hv,hops]
    exact ⟨.unlock,rfl,by simp [Allowed],rfl,fun h => if_pos h,fun h => if_neg h⟩
  · obtain ⟨hq,hn⟩ := not_or.mp hv
    obtain ⟨seq,hs⟩ := Option.ne_none_iff_exists'.mp hn
    have hb' : att.isFwdAtt = true ∨ att.writable ≠ .write := hb.symm
    have hgive (x) (hx : addWriteValue att seq = .ok x) : lockedReply S idl att i r = [.give i] := by
      unfold lockedReply
      simp only [kernelOps_eq hk hidl,if_pos hq,hs,if_pos hb',hx]
    have hkeep (e) (he : addWriteValue att seq = .error e) : lockedReply S idl att i r = [] := by
      unfold lockedReply
      simp only [kernelOps_eq hk hidl,if_pos hq,hs,he]
    rw [LetsGo,if_neg hv,hs]
    refine ⟨.give i,⟨rfl,rfl⟩,by simp [Allowed],rfl,?_,?_⟩
    · rintro ⟨x,hx⟩
      exact hgive x hx
    · intro hno
      cases ha : addWriteValue att seq with
      | ok x => exact absurd ⟨x,ha⟩ hno
      | error e => exact hkeep e ha

theorem kept_reply (hb : att.writable ≠ .write ∨ att.isFwdAtt = true) (held : Bool) (errors : DevErrorList) :
    Kept (· = i) held (if errors = [] then lockedReply S idl att i r else []) ↔
      (held = true ↔ errors = [] ∧ LetsGo att r) := by
  obtain ⟨op,h1,h0,hh,hgo,hstay⟩ := reply_ops (i := i) (r := r) hk hidl hb
  by_cases hg : errors = [] ∧ LetsGo att r
  · rw [if_pos hg.1,hgo hg.2,iff_true_right hg]
    cases held with
    | true => exact iff_of_true ⟨h1,hh⟩ rfl
    | false => exact iff_of_false (fun h => h0 h.1) Bool.false_ne_true
  · have hnil : (if errors = [] then lockedReply S idl att i r else []) = [] := by
      by_cases he : errors = []
      · rw [if_pos he,hstay (fun h => hg ⟨he,h⟩)]
      · exact if_neg he
    rw [hnil,iff_false_right hg]
    exact (Bool.not_eq_true held).symm.to_iff

/-- The first pass takes the mutex of an attribute it goes on to read, and releases it at once when
that fails. -/
theorem read_ops (h : S.isAllowedThrows att.name = none) :
    lockedRead S idl att r =
      (if att.isAllowed = false then [] else
        if (readAtt att r).1.isSome then [.lock,.unlock] else [.lock],readAtt att r) := by
  unfold lockedRead
  simp only [h,kernelOps_eq hk hidl]
  split
  · rfl
  · split <;> rfl

theorem rvalue_ops : lockedRvalue S idl att r =
    (if (setRvalueAtt att r).1.isSome ∧ att.writable = .readWithWrite then [.unlock] else [],
      setRvalueAtt att r) := by
  unfold lockedRvalue
  simp only [kernelOps_eq hk hidl]
  split <;> rfl

end Kernel

/-- An attribute that was read has no exception of its start-up. -/
theorem rvalue_after_read (h : (readAtt att r).1 = none) (hw : att.writable = .readWrite) (r' : Reading α) :
    (setRvalueAtt att r').1 = none := by
  have hm : att.memException = none := by
    unfold readAtt at h
    split at h
    · cases h
    · cases he : att.memException with
      | none => rfl
      | some e =>
        rw [he] at h
        cases h
  simp [setRvalueAtt,hm,hw]

section Own
variable (hk : S.attrSerialModel att.name = .attrByKernel) (hidl : idl = 4 ∨ idl = 5)
include hk hidl

/-- A plain write attribute is not locked. -/
theorem own_unread (hl : Lists att false c) : ownOps S idl att false c i r = [] := by
  have hno : ¬(att.writable ≠ .write ∨ att.isFwdAtt = true) := fun h => nomatch hl.inRead.mpr h
  obtain ⟨hw,hf⟩ := not_or.mp hno
  have hwrite : att.writable = .write := not_not.mp hw
  have hreply : ∀ x, lockedReply S idl att i x = [] := by
    intro x
    unfold lockedReply
    simp only [hwrite,hf]
    repeat' split
    all_goals simp_all
  unfold ownOps
  cases c with
  | false => simp [hreply]
  | true => simp [rvalue_ops hk hidl,hwrite,hreply]

theorem ownOps_eq (h : S.isAllowedThrows att.name = none) : ownOps S idl att true c i r =
    (if att.isAllowed = false then [] else if (readAtt att r).1.isSome then [.lock,.unlock] else [.lock]) ++
      ((if c = true ∧ (setRvalueAtt att (readAtt att r).2).1.isSome ∧ att.writable = .readWithWrite
        then [.unlock] else []) ++
      if (readAlone att true c r).1.getD [] = [] then lockedReply S idl att i (readAlone att true c r).2
      else []) := by
  rw [ownOps,readAlone]
  simp only [if_true,read_ops hk hidl h]
  cases c with
  | false => simp
  | true => simp only [if_true,rvalue_ops hk hidl,true_and,List.append_assoc]

theorem kept_after (hl : Lists att true c) (held : Bool) (h : held = (readAtt att r).1.isNone) :
    Kept (· = i) held ((if c = true ∧ (setRvalueAtt att (readAtt att r).2).1.isSome ∧
        att.writable = .readWithWrite then [.unlock] else []) ++
      if (readAlone att true c r).1.getD [] = [] then lockedReply S idl att i (readAlone att true c r).2
      else []) ↔
    (att.writable = .readWithWrite → (readAtt att r).1 ≠ none →
        (setRvalueAtt att (readAtt att r).2).1 = none) ∧
      ((readAlone att true c r).1 = none → LetsGo att (readAlone att true c r).2) ∧
      ((readAlone att true c r).1 = some [] → ¬LetsGo att (readAlone att true c r).2) := by
  have hb := hl.inRead.mp rfl
  have hx : (readAlone att true c r).1 =
      (if c then (setRvalueAtt att (readAtt att r).2).1 else none).or (readAtt att r).1 := by
    rw [readAlone]
    cases c <;> rfl
  generalize readAlone att true c r = x at hx ⊢
  by_cases hun : c = true ∧ (setRvalueAtt att (readAtt att r).2).1.isSome ∧ att.writable = .readWithWrite
  · obtain ⟨hc,hs,hw⟩ := hun
    obtain ⟨e,he⟩ := Option.isSome_iff_exists.mp hs
    have hxe : x.1 = some e := by simp [hx,hc,he]
    simp only [hc,hs,hw,and_self,if_true,List.singleton_append,hxe,Option.getD_some]
    cases held with
    | false =>
      have hfail : (readAtt att r).1 ≠ none := fun hn => by simp [hn] at h
      refine iff_of_false not_kept_unlock (fun hall => ?_)
      rw [he] at hall
      exact absurd (hall.1 trivial hfail) (by simp)
    | true =>
      have hok : (readAtt att r).1 = none := by simpa using h
      rw [kept_unlock,kept_reply hk hidl hb]
      simp [hok]
  · rw [if_neg hun,List.nil_append,kept_reply hk hidl hb]
    cases hp : (readAtt att r).1 with
    | none =>
      have hq : c = true → (setRvalueAtt att (readAtt att r).2).1 = none := by
        intro hc
        rcases hl.inWrite rfl hc with hw | hw
        · exact rvalue_after_read hp hw _
        · simpa [hc,hw] using hun
      have hxn : x.1 = none := by
        rw [hx,hp]
        cases c with
        | false => rfl
        | true => simp [hq rfl]
      simp [h,hp,hxn]
    | some e =>
      have hxs : ∃ e', x.1 = some e' := by
        rw [hx,hp]
        exact Option.isSome_iff_exists.mp (by simp)
      obtain ⟨e',he'⟩ := hxs
      have honce : att.writable = .readWithWrite → (setRvalueAtt att (readAtt att r).2).1 = none := by
        intro hw
        simpa [hl.both hw,hw] using hun
      simp [h,hp,he']
      tauto

theorem own_kept (hl : Lists att b c) :
    Kept (· = i) false (ownOps S idl att b c i r) ↔ (b = true → MutexKept S att c r) := by
  cases b with
  | false =>
    rw [own_unread hk hidl hl]
    exact iff_of_true rfl (fun h => absurd h Bool.false_ne_true)
  | true =>
    refine Iff.trans ?_ (forall_prop_of_true rfl).symm
    cases ht : S.isAllowedThrows att.name with
    | some t =>
      refine iff_of_false (fun h => ?_) (fun h => by simp [h.isAllowed] at ht)
      simp only [ownOps,lockedRead,ht,kernelOps_eq hk hidl,if_true,List.cons_append] at h
      exact not_kept_unlock h
    | none =>
      have hkept : (att.writable = .readWithWrite → (readAtt att r).1 ≠ none →
            (setRvalueAtt att (readAtt att r).2).1 = none) ∧
          ((readAlone att true c r).1 = none → LetsGo att (readAlone att true c r).2) ∧
          ((readAlone att true c r).1 = some [] → ¬LetsGo att (readAlone att true c r).2) ↔
          MutexKept S att c r :=
        ⟨fun h => ⟨ht,h.1,h.2.1,h.2.2⟩,fun h => ⟨h.once,h.passed,h.unnamed⟩⟩
      rw [ownOps_eq hk hidl ht]
      cases ha : att.isAllowed with
      | false =>
        have hp : (readAtt att r).1 = some (notAllowed att) := by rw [readAtt,if_pos ha]
        exact (kept_after hk hidl hl false (by rw [hp]; rfl)).trans hkept
      | true =>
        cases hp : (readAtt att r).1 with
        | none => exact kept_lock.trans ((kept_after hk hidl hl true (by rw [hp]; rfl)).trans hkept)
        | some e =>
          exact kept_lock.trans (kept_unlock.trans
            ((kept_after hk hidl hl false (by rw [hp]; rfl)).trans hkept))

end Own

end Attribute

section Loops
variable {dev : DeviceImpl α} {names : List String} {slot : Nat → Nat} {n : String × Nat}
  {f : Attribute α → Reading α → List (LockOp Nat) × (Option DevErrorList × Reading α)}
  {name : Nat → String} {l : List AttIdx} {j : Nat} {b c : Bool} {att : Attribute α}

/-- A loop over attributes does with the mutex of one what that attribute's own round does. -/
theorem locked_loop_own (hl : Listed dev names l) (hd : (names.map lowerName).Nodup)
    (hn : n ∈ names.zipIdx) (hw : wanted dev n.1 = .ok (.att j b c)) (ha : dev.attrs[j]? = some att)
    (s : Locked α) :
    own j (l.foldl (lockedStep dev f slot name) s).ops =
      own j s.ops ++ if (⟨n.2,j⟩ : AttIdx) ∈ l then (f att (s.run.held j)).1 else [] := by
  have hframe : ∀ x ∈ l, x ≠ ⟨n.2,j⟩ → ∀ s : Locked α,
      ((lockedStep dev f slot name s x).run.held j,own j (lockedStep dev f slot name s x).ops) =
        (s.run.held j,own j s.ops) := by
    intro x hx hne s
    obtain ⟨m,hm,hp,b',c',hmw⟩ := hl.wanted x hx
    have hj : x.idxInMultiAttr ≠ j := by
      intro he
      rw [he] at hmw
      have hmn := att_inj hd hm hn hmw hw
      subst m
      exact hne (by rw [hp,← he])
    rw [lockedStep,attStep_held (Ne.symm hj),own_append]
    split
    · simp [own]
    · rw [own_other hj,List.append_nil]
  split
  next hmem =>
    have hv := foldl_own (p := fun s : Locked α => (s.run.held j,own j s.ops))
      (h := fun v => ((f att v.1).2.2,v.2 ++ (f att v.1).1)) hl.places.of_map hmem (fun s => ?_) hframe s
    · exact (Prod.ext_iff.mp hv).2
    · have hheld : (attStep dev (fun att r => (f att r).2) slot name s.run ⟨n.2,j⟩).held j =
          (f att (s.run.held j)).2.2 := (Prod.ext_iff.mp (attStep_own ha s.run)).2
      rw [lockedStep,hheld]
      simp only [ha,own_append,own_same]
  next hmem =>
    rw [List.append_nil]
    exact (Prod.ext_iff.mp (foldl_unchanged (p := fun s : Locked α => (s.run.held j,own j s.ops))
      (fun x hx => hframe x hx (fun he => hmem (he ▸ hx))) s)).2

/-- What a run shows of one attribute: what was done with its mutex, what it holds, and the errors in
its element. -/
def seen (slot : Nat → Nat) (n : String × Nat) (j : Nat) (s : Locked α) :
    List (LockOp Nat) × Reading α × DevErrorList :=
  (own j s.ops,s.run.held j,(s.run.reply (slot n.2)).errList)

def seenAfter (o : List (LockOp Nat) × (Option DevErrorList × Reading α))
    (v : List (LockOp Nat) × Reading α × DevErrorList) : List (LockOp Nat) × Reading α × DevErrorList :=
  (v.1 ++ o.1,o.2.2,o.2.1.getD v.2.2)

theorem locked_loop (hl : Listed dev names l) (hs : Spread slot names)
    (hd : (names.map lowerName).Nodup) (hn : n ∈ names.zipIdx)
    (hw : wanted dev n.1 = .ok (.att j b c)) (ha : dev.attrs[j]? = some att) (s : Locked α) :
    seen slot n j (l.foldl (lockedStep dev f slot (fun i => names.getD i "")) s) =
      if (⟨n.2,j⟩ : AttIdx) ∈ l then seenAfter (f att (s.run.held j)) (seen slot n j s)
      else seen slot n j s := by
  have hown : own j (l.foldl (lockedStep dev f slot (fun i => names.getD i "")) s).ops = _ :=
    locked_loop_own hl hd hn hw ha s
  have hatt : ((l.foldl (attStep dev (fun att r => (f att r).2) slot (fun i => names.getD i ""))
        s.run).reply (slot n.2),
      (l.foldl (attStep dev (fun att r => (f att r).2) slot (fun i => names.getD i "")) s.run).held j) = _ :=
    att_loop_att hl hs hd hn hw ha (name_at hn) s.run
  obtain ⟨hreply,hheld⟩ := Prod.ext_iff.mp hatt
  simp only [] at hreply hheld
  unfold seen
  rw [erased_loop,hown,hheld,hreply]
  split
  · unfold seenAfter attOwn
    cases (f att (s.run.held j)).2.1 with
    | none => rfl
    | some e => rfl
  · rw [List.append_nil]

/-- It does nothing with mutexes of other attributes. -/
theorem locked_loop_other (hl : Listed dev names l)
    (hj : ∀ n ∈ names.zipIdx, ∀ b c, wanted dev n.1 ≠ .ok (.att j b c)) (s : Locked α) :
    own j (l.foldl (lockedStep dev f slot name) s).ops = own j s.ops := by
  refine foldl_unchanged (p := fun s : Locked α => own j s.ops) (fun x hx s => ?_) s
  obtain ⟨m,hm,-,b',c',hmw⟩ := hl.wanted x hx
  have hne : x.idxInMultiAttr ≠ j := fun he => hj m hm b' c' (he ▸ hmw)
  rw [lockedStep,own_append]
  split
  · simp [own]
  · rw [own_other hne,List.append_nil]

variable {stateIdx statusIdx : Option Nat} {s s' : Locked α}

theorem ind_inj (hd : (names.map lowerName).Nodup) (hn : n ∈ names.zipIdx) {m : String × Nat}
    (hm : m ∈ names.zipIdx) (h : getAttrIndByName dev.names n.1 = .ok j)
    (h' : getAttrIndByName dev.names m.1 = .ok j) : n = m := by
  obtain ⟨x,hx,hxn⟩ := attr_ind_found h
  obtain ⟨y,hy,hym⟩ := attr_ind_found h'
  rw [hx,Option.some.injEq] at hy
  subst y
  exact name_inj hd hn hm (hxn.symm.trans hym)

theorem lockedReplyStep_ok (h : lockedReplyStep S idl dev slot stateIdx statusIdx s n = .ok s') :
    toReplyStep dev idl slot stateIdx statusIdx s.run n = .ok s'.run ∧
      s'.ops = s.ops ++ replyOps S idl dev slot stateIdx statusIdx s.run n := by
  unfold lockedReplyStep at h
  cases hr : toReplyStep dev idl slot stateIdx statusIdx s.run n with
  | error e =>
    rw [hr] at h
    cases h
  | ok r =>
    rw [hr] at h
    cases h
    exact ⟨rfl,rfl⟩

theorem replyOps_other (h : getAttrIndByName dev.names n.1 ≠ .ok j) (r : Run α) :
    own j (replyOps S idl dev slot stateIdx statusIdx r n) = [] := by
  unfold replyOps
  split
  · rfl
  · split
    · cases hg : getAttrIndByName dev.names n.1 with
      | error e => rfl
      | ok ind =>
        have hne : ind ≠ j := fun he => h (he ▸ hg)
        simp only []
        split
        · rfl
        · exact own_other hne _
    · rfl

theorem replyOps_same (hg : getAttrIndByName dev.names n.1 = .ok j) (ha : dev.attrs[j]? = some att)
    (hst : stateIdx ≠ some n.2) (hsu : statusIdx ≠ some n.2) (r : Run α) :
    own j (replyOps S idl dev slot stateIdx statusIdx r n) =
      if (r.reply (slot n.2)).errList = [] then lockedReply S idl att (slot n.2) (r.held j) else [] := by
  unfold replyOps
  rw [if_neg (not_or_intro hst hsu)]
  by_cases he : (r.reply (slot n.2)).errList = []
  · have hno : noErr r (slot n.2) := he
    rw [if_pos hno,if_pos he]
    simp only [hg,ha]
    exact own_same j _
  · have hno : ¬noErr r (slot n.2) := he
    rw [if_neg hno,if_neg he]
    rfl

/-- The last loop does with a mutex what it does for the name of its attribute. -/
theorem locked_reply_own (hs : Spread slot names) (hd : (names.map lowerName).Nodup)
    (hn : n ∈ names.zipIdx) (hg : getAttrIndByName dev.names n.1 = .ok j)
    (ha : dev.attrs[j]? = some att) (hst : stateIdx ≠ some n.2) (hsu : statusIdx ≠ some n.2)
    (h : names.zipIdx.foldlM (lockedReplyStep S idl dev slot stateIdx statusIdx) s = .ok s') :
    own j s'.ops = own j s.ops ++
      if (s.run.reply (slot n.2)).errList = [] then lockedReply S idl att (slot n.2) (s.run.held j) else [] := by
  have hv := foldlM_own (p := fun s : Locked α => ((s.run.reply (slot n.2),s.run.held),own j s.ops))
    (h := fun v => ((toReplyOwn dev idl stateIdx statusIdx n v.1.2 v.1.1,v.1.2),
      v.2 ++ if v.1.1.errList = [] then lockedReply S idl att (slot n.2) (v.1.2 j) else []))
    (zipIdx_nodup names) hn (fun t t' ht => ?_) (fun m hm hne t t' ht => ?_) h
  · exact (Prod.ext_iff.mp hv).2
  · obtain ⟨hrun,hops⟩ := lockedReplyStep_ok ht
    rw [toReplyStep_own hrun,toReplyStep_held hrun,hops,own_append,replyOps_same hg ha hst hsu]
  · obtain ⟨hrun,hops⟩ := lockedReplyStep_ok ht
    have hother : getAttrIndByName dev.names m.1 ≠ .ok j :=
      fun hm' => hne (ind_inj hd hm hn hm' hg)
    rw [toReplyStep_reply (fun he => hne (hs m hm n hn he.symm)) hrun,toReplyStep_held hrun,hops,
      own_append,replyOps_other hother,List.append_nil]

theorem locked_reply_other (hj : ∀ n ∈ names.zipIdx, getAttrIndByName dev.names n.1 ≠ .ok j)
    (h : names.zipIdx.foldlM (lockedReplyStep S idl dev slot stateIdx statusIdx) s = .ok s') :
    own j s'.ops = own j s.ops := by
  refine foldlM_unchanged (p := fun s : Locked α => own j s.ops) (fun m hm t t' ht => ?_) h
  rw [(lockedReplyStep_ok ht).2,own_append,replyOps_other (hj m hm),List.append_nil]

end Loops

section Call
variable {dev : DeviceImpl α} {names : List String} {secondTry : Bool} {idx : List Nat} {r : Run α}

/-- A call of an IDL 4 or 5 client for attributes of the serial model ATTR_BY_KERNEL, all different,
each with an element of its own in the reply. -/
structure MutexCall (S : Serial) (idl : Nat) (dev : DeviceImpl α) (names : List String)
    (slot : Nat → Nat) (r : Run α) : Prop where
  client : idl = 4 ∨ idl = 5
  kernel : ∀ att ∈ dev.attrs, S.attrSerialModel att.name = .attrByKernel
  attributes : ∀ n ∈ names.zipIdx, wanted dev n.1 ≠ .ok .state ∧ wanted dev n.1 ≠ .ok .status
  spread : Spread slot names
  distinct : (names.map lowerName).Nodup
  noErrors : ∀ n ∈ names.zipIdx, (r.reply (slot n.2)).errList = []

/-- The reply element of the attribute with an index. -/
def Home (dev : DeviceImpl α) (names : List String) (slot : Nat → Nat) (j i : Nat) : Prop :=
  ∃ n ∈ names.zipIdx, i = slot n.2 ∧ ∃ b c, wanted dev n.1 = .ok (.att j b c)

/-- Every release and hand-over is one of a mutex the call holds, and it holds none in the end; a
call that fails has taken none. -/
def MutexesInOrder (S : Serial) (idl : Nat) (dev : DeviceImpl α) (names : List String)
    (secondTry : Bool) (idx : List Nat) (r : Run α) : Prop :=
  match readAttributesLocked S idl dev names secondTry idx r with
  | .ok s => AllKept (Home dev names (index secondTry idx)) (fun _ => false) s.ops
  | .error e => hookErrors dev names.zipIdx = some e

variable (S dev names) in
/-- The two loops over the attributes. -/
def lockedGathered (idl : Nat) (slot : Nat → Nat) (r : Run α) : Locked α :=
  (names.zipIdx.filterMap (wantedWAttr dev)).foldl
    (lockedStep dev (lockedRvalue S idl) slot (fun i => names.getD i ""))
    ((names.zipIdx.filterMap (wantedAttr dev)).foldl
      (lockedStep dev (lockedRead S idl) slot (fun i => names.getD i ""))
      ⟨names.zipIdx.foldl (wantedStep dev slot) r,[]⟩)

theorem wantedIdx_none {x : Wanted} (h : ∀ n ∈ names.zipIdx, wanted dev n.1 ≠ .ok x) :
    wantedIdx dev x names.zipIdx = none := by
  cases hi : wantedIdx dev x names.zipIdx with
  | none => rfl
  | some i =>
    obtain ⟨n,hn,-,hw⟩ := wantedIdx_some hi
    exact absurd hw (h n hn)

variable {slot : Nat → Nat} {n : String × Nat} {j : Nat} {b c : Bool} {att : Attribute α}

/-- What the two loops leave for the name of an attribute. -/
theorem gathered_locked (h : MutexCall S idl dev names slot r) (hn : n ∈ names.zipIdx)
    (hw : wanted dev n.1 = .ok (.att j b c)) (ha : dev.attrs[j]? = some att) :
    let p := if b then lockedRead S idl att (r.held j) else ([],(none,r.held j))
    let q := if c then lockedRvalue S idl att p.2.2 else ([],(none,p.2.2))
    seen slot n j (lockedGathered S dev names idl slot r) = (p.1 ++ q.1,q.2.2,(q.2.1.or p.2.1).getD []) := by
  have h0 : seen slot n j ⟨names.zipIdx.foldl (wantedStep dev slot) r,[]⟩ = ([],r.held j,[]) := by
    unfold seen
    rw [wanted_loop h.spread hn,wantedOwn,hw,wanted_loop_held,h.noErrors n hn]
    rfl
  intro p q
  have h1 : seen slot n j ((names.zipIdx.filterMap (wantedAttr dev)).foldl
      (lockedStep dev (lockedRead S idl) slot (fun i => names.getD i ""))
      ⟨names.zipIdx.foldl (wantedStep dev slot) r,[]⟩) = (p.1,p.2.2,p.2.1.getD []) := by
    have hheld : (names.zipIdx.foldl (wantedStep dev slot) r).held j = r.held j :=
      congrArg (fun v => v.2.1) h0
    rw [locked_loop (listed_read dev names) h.spread h.distinct hn hw ha,h0,hheld]
    simp only [mem_read hn hw]
    cases b with
    | true => rfl
    | false => rfl
  have hheld := congrArg (fun v => v.2.1) h1
  simp only [seen] at hheld
  rw [lockedGathered,locked_loop (listed_write dev names) h.spread h.distinct hn hw ha,h1,hheld]
  simp only [mem_write hn hw]
  cases c with
  | true =>
    have herr : ∀ x y : Option DevErrorList, x.getD (y.getD []) = (x.or y).getD [] := by
      intro x y
      cases x <;> rfl
    exact Prod.ext rfl (Prod.ext rfl (herr _ _))
  | false => exact Prod.ext (List.append_nil _).symm rfl

theorem gathered_unnamed (hj : ∀ n ∈ names.zipIdx, ∀ b c, wanted dev n.1 ≠ .ok (.att j b c)) :
    own j (lockedGathered S dev names idl slot r).ops = [] := by
  rw [lockedGathered,locked_loop_other (listed_write dev names) hj,
    locked_loop_other (listed_read dev names) hj]
  rfl

/-- A name that is unknown, or whose attribute could not be started, has errors before the last loop. -/
theorem gathered_unwanted (h : MutexCall S idl dev names slot r) (hn : n ∈ names.zipIdx)
    {e : DevErrorList} (hw : wanted dev n.1 = .error e) :
    ((lockedGathered S dev names idl slot r).run.reply (slot n.2)).errList ≠ [] := by
  have hno : ∀ j b c, wanted dev n.1 ≠ .ok (.att j b c) := by
    intro j b c hj
    rw [hw] at hj
    cases hj
  rw [lockedGathered,erased_loop,att_loop_other (listed_write dev names) h.spread hn hno,erased_loop,
    att_loop_other (listed_read dev names) h.spread hn hno,wanted_loop h.spread hn,wantedOwn,hw]
  exact wanted_error hw

theorem locked_eq (h : MutexCall S idl dev names (index secondTry idx) r)
    (hh : hookErrors dev names.zipIdx = none) :
    readAttributesLocked S idl dev names secondTry idx r =
      names.zipIdx.foldlM (lockedReplyStep S idl dev (index secondTry idx) none none)
        (lockedGathered S dev names idl (index secondTry idx) r) := by
  unfold readAttributesLocked
  simp only [hh,wantedIdx_none (fun n hn => (h.attributes n hn).1),
    wantedIdx_none (fun n hn => (h.attributes n hn).2)]
  rfl

theorem locked_returns (h : MutexCall S idl dev names (index secondTry idx) r)
    (hh : hookErrors dev names.zipIdx = none) :
    ∃ s, readAttributesLocked S idl dev names secondTry idx r = .ok s := by
  rw [locked_eq h hh]
  obtain ⟨r',hr⟩ := to_reply_returns idl h.spread h.distinct
    (fun n hn e hw => gathered_unwanted h hn hw)
  rw [wantedIdx_none (fun n hn => (h.attributes n hn).1),
    wantedIdx_none (fun n hn => (h.attributes n hn).2),← erased_reply (S := S)] at hr
  cases hl : names.zipIdx.foldlM (lockedReplyStep S idl dev (index secondTry idx) none none)
      (lockedGathered S dev names idl (index secondTry idx) r) with
  | ok s => exact ⟨s,rfl⟩
  | error e =>
    rw [hl] at hr
    cases hr

variable {s : Locked α}

theorem own_named (h : MutexCall S idl dev names (index secondTry idx) r)
    (hs : readAttributesLocked S idl dev names secondTry idx r = .ok s)
    (hh : hookErrors dev names.zipIdx = none) (hn : n ∈ names.zipIdx)
    (hw : wanted dev n.1 = .ok (.att j b c)) (ha : dev.attrs[j]? = some att) :
    own j s.ops = ownOps S idl att b c (index secondTry idx n.2) (r.held j) := by
  rw [locked_eq h hh] at hs
  have hg := gathered_locked h hn hw ha
  obtain ⟨hops,hrest⟩ := Prod.ext_iff.mp hg
  obtain ⟨hheld,herr⟩ := Prod.ext_iff.mp hrest
  simp only [seen] at hops hheld herr
  rw [locked_reply_own h.spread h.distinct hn (wanted_att hw).1 ha (Option.some_ne_none _).symm
    (Option.some_ne_none _).symm hs,hops,hheld,herr]
  rfl

theorem attr_found (h : getAttrIndByName dev.names n.1 = .ok j) : ∃ att, dev.attrs[j]? = some att := by
  obtain ⟨x,hx,-⟩ := attr_ind_found h
  rw [DeviceImpl.names,List.getElem?_map] at hx
  obtain ⟨att,ha,-⟩ := Option.map_eq_some_iff.mp hx
  exact ⟨att,ha⟩

theorem own_unnamed (h : MutexCall S idl dev names (index secondTry idx) r)
    (hs : readAttributesLocked S idl dev names secondTry idx r = .ok s)
    (hh : hookErrors dev names.zipIdx = none)
    (hj : ∀ n ∈ names.zipIdx, ∀ b c, wanted dev n.1 ≠ .ok (.att j b c)) : own j s.ops = [] := by
  rw [locked_eq h hh] at hs
  by_cases hex : ∃ n ∈ names.zipIdx, getAttrIndByName dev.names n.1 = .ok j
  · obtain ⟨n,hn,hg⟩ := hex
    obtain ⟨att,ha⟩ := attr_found hg
    obtain ⟨-,hw⟩ | ⟨-,hw⟩ | ⟨e,-,hw⟩ | ⟨ind,b,c,att',hg',-,hw⟩ := wanted_cases dev n.1
    · exact absurd hw (h.attributes n hn).1
    · exact absurd hw (h.attributes n hn).2
    · rw [locked_reply_own h.spread h.distinct hn hg ha (Option.some_ne_none _).symm
        (Option.some_ne_none _).symm hs,gathered_unnamed hj,if_neg (gathered_unwanted h hn hw),List.append_nil]
    · rw [hg] at hg'
      cases hg'
      exact absurd hw (hj n hn b c)
  · rw [locked_reply_other (fun n hn hg => hex ⟨n,hn,hg⟩) hs,gathered_unnamed hj]

theorem wanted_lists (hw : wanted dev n.1 = .ok (.att j b c)) (ha : dev.attrs[j]? = some att) :
    Lists att b c := by
  obtain ⟨hg,-⟩ := wanted_att hw
  unfold wanted at hw
  split at hw
  · cases hw
  · split at hw
    · cases hw
    · rw [hg] at hw
      simp only [ha] at hw
      cases hse : att.startupException with
      | some d =>
        rw [hse] at hw
        cases hw
      | none =>
        rw [hse] at hw
        exact lists_wanted (Except.ok.inj hw)

theorem home_named (hd : (names.map lowerName).Nodup) (hn : n ∈ names.zipIdx)
    (hw : wanted dev n.1 = .ok (.att j b c)) : Home dev names slot j = (· = slot n.2) := by
  funext i
  refine propext ⟨?_,fun hi => ⟨n,hn,hi,b,c,hw⟩⟩
  rintro ⟨m,hm,rfl,b',c',hmw⟩
  rw [att_inj hd hm hn hmw hw]

/-- The mutexes are in order exactly when every attribute that is read keeps its own. -/
theorem mutexes_in_order (h : MutexCall S idl dev names (index secondTry idx) r) :
    MutexesInOrder S idl dev names secondTry idx r ↔
      (hookErrors dev names.zipIdx = none → ∀ n ∈ names.zipIdx, ∀ j c att,
        wanted dev n.1 = .ok (.att j true c) → dev.attrs[j]? = some att →
          MutexKept S att c (r.held j)) := by
  cases hh : hookErrors dev names.zipIdx with
  | some e =>
    have hs : readAttributesLocked S idl dev names secondTry idx r = .error e := by
      unfold readAttributesLocked
      simp only [hh]
    unfold MutexesInOrder
    rw [hs]
    exact iff_of_true hh nofun
  | none =>
    obtain ⟨s,hs⟩ := locked_returns h hh
    have hone : ∀ n ∈ names.zipIdx, ∀ j b c att, wanted dev n.1 = .ok (.att j b c) →
        dev.attrs[j]? = some att →
          (Kept (Home dev names (index secondTry idx) j) false (own j s.ops) ↔
            (b = true → MutexKept S att c (r.held j))) := by
      intro n hn j b c att hw ha
      rw [home_named h.distinct hn hw,own_named h hs hh hn hw ha]
      exact own_kept (h.kernel att (List.mem_of_getElem? ha)) h.client (wanted_lists hw ha)
    unfold MutexesInOrder
    rw [hs]
    simp only []
    rw [allKept_iff]
    constructor
    · intro hall _ n hn j c att hw ha
      exact (hone n hn j true c att hw ha).mp (hall j) rfl
    · intro hall j
      by_cases hj : ∃ n ∈ names.zipIdx, ∃ b c, wanted dev n.1 = .ok (.att j b c)
      · obtain ⟨n,hn,b,c,hw⟩ := hj
        obtain ⟨att,ha⟩ := (wanted_att hw).2
        refine (hone n hn j b c att hw ha).mpr (fun hb => ?_)
        subst hb
        exact hall trivial n hn j c att hw ha
      · rw [own_unnamed h hs hh (fun n hn b c hw => hj ⟨n,hn,b,c,hw⟩)]
        rfl

end Call

section Valve

/-- `is_allowed` throws, before the mutex of the attribute is taken. -/
def valve : DeviceImpl Int where
  attrs := [plain "Position",plain "State",plain "Status"]
  pollObjList := []
  now := 0
  deviceState := .on
  alarmList := []
  alwaysExecutedHook := none
  readAttrHardware := fun _ => none
  devState := .ok .on
  devStatus := .ok "The device is in ON state."

def throwing : Serial := ⟨fun _ => .attrByKernel,fun _ => some (.devFailed (thrown "Busy" "Moving" "Valve"))⟩

theorem unlocked_by_stranger :
    ¬MutexesInOrder throwing 5 valve ["Position"] false [] ⟨fun _ => .blank,emptyHeld⟩ := by
  intro h
  exact Bool.false_ne_true h.1

theorem unlocked_by_stranger_when :
    MutexesInOrder throwing 5 valve ["Position"] false [] ⟨fun _ => .blank,emptyHeld⟩ ↔
      (hookErrors valve ["Position"].zipIdx = none → ∀ n ∈ ["Position"].zipIdx, ∀ j c att,
        wanted valve n.1 = .ok (.att j true c) → valve.attrs[j]? = some att →
          MutexKept throwing att c (emptyHeld j)) := by
  refine mutexes_in_order ⟨Or.inr rfl,fun _ _ => rfl,?_,?_,by decide,fun _ _ => rfl⟩
  · intro n hn
    rw [List.mem_singleton.mp hn]
    exact ⟨by decide,by decide⟩
  · intro n hn m hm _
    rw [List.mem_singleton.mp hn,List.mem_singleton.mp hm]

end Valve

end CppTango.Device.Read
