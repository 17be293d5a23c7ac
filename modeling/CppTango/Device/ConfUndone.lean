import CppTango.Device.ConfStored
import CppTango.Lib.Outcome

namespace CppTango.Device.Conf

open CppTango.Lib StrProps

variable {D : Doubles} {attr : AttrDesc}

section Restored
variable {mem : Memorized D} {stack stackBack : RangeProp → D.Dbl × D.Dbl} {conf : AttributeConfig} {s : AttrState D}

/-- An item that is kept, of a configuration that has not been refused for it, is restored by setting it
again. -/
theorem item_restores {i : Item} (hi : i ∈ items attr) (hk : itemKept attr mem stackBack s i) {t : AttrState D}
    {out : List (AttPropDb D)} (hok : (itemSetter attr mem stack conf i t).2 = .ok out) :
    Restores looks s ⟨i,itemSetter attr mem stackBack (getProperties attr s) i⟩ := by
  let c : Call D := ⟨mem,stack,stack,stackBack,true,fun _ => none,fun _ => false⟩
  have hundo : (⟨i,itemSetter attr mem stack conf i,itemSetter attr mem stackBack (getProperties attr s) i⟩ :
      Paired Item (AttrState D) (AttPropDb D) DevErrorList).Undoes looks s := item_undoes (c := c) hi hk
  rcases hundo with hr | ⟨hrefused,-⟩
  · exact hr
  · obtain ⟨⟨e,he⟩,-⟩ := hrefused t
    cases he.symm.trans hok

/-- All of the old configuration is restored from anywhere. -/
theorem old_restored (hk : ∀ i ∈ items attr, itemKept attr mem stackBack s i) {vDb : List (AttPropDb D)}
    (hv : (setProperties attr mem stack conf s).2 = .ok vDb) (t : AttrState D) :
    (∃ outs, (setProperties attr mem stackBack (getProperties attr s) t).2 = .ok outs) ∧
      ∀ i ∈ items attr, looks i (setProperties attr mem stackBack (getProperties attr s) t).1 s := by
  have hr : ∀ i ∈ items attr, Restores looks s ⟨i,itemSetter attr mem stackBack (getProperties attr s) i⟩ := by
    intro i hi
    obtain ⟨u,out,-,ho,-⟩ := setProperties_item hv hi
    exact item_restores hi (hk i hi) ho
  obtain ⟨hok,hall⟩ := setAll_restores looks_equivalence (List.forall_mem_map.mpr (fun i _ => keeps_looks i))
    ((cells_items attr _).symm ▸ items_nodup attr) (List.forall_mem_map.mpr hr) t
  exact ⟨hok,fun i hi => hall _ (List.mem_map_of_mem hi)⟩

end Restored

section Between
variable {i : Item} {v1 v2 out1 out2 : List (AttPropDb D)} {d0 : List AttrProperty} {answers : Answers}
  {mem : Memorized D} {stack : RangeProp → D.Dbl × D.Dbl} {conf : AttributeConfig} {t : AttrState D}

theorem item_names_nodup (i : Item) : i.names.Nodup := by
  cases i <;> simp [Item.names]

/-- What an update leaves for a name is what the work of its item leaves. -/
theorem startProp_actions {l out : List (AttPropDb D)} {d : List AttrProperty} {name : String}
    (hl : ((l.map AttPropDb.sent).map StrProps.AttPropDb.name).Nodup)
    (ho : (out.map AttPropDb.name).Sublist i.names)
    (h : actionOf name (l.map AttPropDb.sent) = actionOf name (out.map AttPropDb.sent)) :
    startProp attr name (updDatabase (l.map AttPropDb.sent) d) = startProp attr name (updAttDatabase out d) := by
  have hn : ((out.map AttPropDb.sent).map StrProps.AttPropDb.name).Nodup := by
    rw [List.map_map]
    exact (item_names_nodup i).sublist ho
  unfold updAttDatabase
  rw [startProp_eq,startProp_eq,propInList_updDatabase _ _ _ hl,propInList_updDatabase _ _ _ hn,h]

variable (d0 answers) in
theorem putBack_item (hv1 : ((v1.map AttPropDb.sent).map StrProps.AttPropDb.name).Nodup)
    (hv2 : ((v2.map AttPropDb.sent).map StrProps.AttPropDb.name).Nodup)
    (ho1 : (itemSetter attr mem stack conf i t).2 = .ok out1) (ho2 : (out2.map AttPropDb.name).Sublist i.names)
    (ha1 : ∀ name ∈ i.names, actionOf name (v1.map AttPropDb.sent) = actionOf name (out1.map AttPropDb.sent))
    (ha2 : ∀ name ∈ i.names, actionOf name (v2.map AttPropDb.sent) = actionOf name (out2.map AttPropDb.sent)) :
    PutBack attr i.names out1 out2 d0 (dbAccess answers (v1.map AttPropDb.sent) d0).1
      (updDatabase (v2.map AttPropDb.sent) (dbAccess answers (v1.map AttPropDb.sent) d0).1) := by
  have hkind := itemSetter_kind ho1
  have hkind1 : (∀ name ∈ i.names, actionOf name (v1.map AttPropDb.sent) ≠ some .del) ∨
      (∀ name ∈ i.names, ∀ v, actionOf name (v1.map AttPropDb.sent) ≠ some (.upd v)) := by
    refine hkind.imp (fun h name hn => ?_) (fun h name hn => ?_)
    · rw [ha1 name hn]
      exact h name hn
    · rw [ha1 name hn]
      exact h name hn
  refine ⟨?_,fun name hn => startProp_actions hv2 ho2 (ha2 name hn)⟩
  rcases dbAccess_between answers d0 hv1 hkind1 with h | h
  · refine .inl fun name hn => ?_
    rw [startProp_eq,startProp_eq,h name hn]
  · refine .inr fun name hn => ?_
    rw [← startProp_actions hv1 (itemSetter_names i ho1) (ha1 name hn),startProp_eq,startProp_eq,h name hn,
      propInList_updDatabase _ _ _ hv1]

end Between

section Step
variable (attr)

/-- The request and the old configuration set again leave an item in the database as it was. -/
def itemWritten (c : StoredCall D) (conf : AttributeConfig) (s : AttrState D) : Item → Prop
  | .hardCoded | .hardCodedAgain | .level => True
  | .str p => strWritten attr p (conf.str p) (s.str p)
  | .range p => rangeWritten attr c.mem (c.stack p) p (conf.range p) (s.range p)
  | .rds => rdsWritten attr conf.rds s.rds
  | .change p => changeWritten attr p (conf.change p) (s.change p)
  | .period p => periodWritten D attr p (conf.period p) (s.period p)

/-- The old configuration can be set again: in memory and, once the database was asked, there too. -/
structure Restorable (c : StoredCall D) (conf : AttributeConfig) (s : StoredState D) : Prop where
  memory : Kept attr (c.call attr conf s) s.mem
  database : refused attr (c.call attr conf s) conf s.mem = false →
    ∀ i ∈ items attr, itemKept attr c.mem c.stackDb s.mem i ∧ itemWritten attr c conf s.mem i

/-- A start makes of the database what is in memory. -/
def Agreed (s : StoredState D) : Prop := ∀ i, looks i (startState D attr s.db) s.mem

/-- The exception of a call that does not report a corrupted database. -/
def Failed (c : StoredCall D) (conf : AttributeConfig) (s : StoredState D) : Prop :=
  ∃ e, (setUpdStored attr c conf s).2 = some e ∧ e ≠ corruptedDatabase attr

end Step

section Step
variable {c : StoredCall D} {conf : AttributeConfig} {s : StoredState D}

/-- How a call ends that is not refused: the database accepts it, or the old values are in the database
again, or a corrupted database is reported. -/
theorem accepted_cases (hr : refused attr (c.call attr conf s) conf s.mem = false)
    (hk : Kept attr (c.call attr conf s) s.mem) :
    (setUpdStored attr c conf s).2 = none ∨ (setUpdStored attr c conf s).2 = some (corruptedDatabase attr) ∨
      ∃ m m' vDb back, setProperties attr c.mem c.stack conf s.mem = (m,.ok vDb) ∧
        setProperties attr c.mem c.stackDb (getProperties attr s.mem) m = (m',.ok back) ∧
        (setUpdStored attr c conf s).1 =
          ⟨(setProperties attr c.mem c.stackBack (getProperties attr s.mem) m').1,
            updDatabase (back.map AttPropDb.sent) (dbAccess c.update (vDb.map AttPropDb.sent) s.db).1⟩ := by
  unfold refused StoredCall.call at hr
  unfold setUpdStored
  dsimp only at hr ⊢
  cases hs : setProperties attr c.mem c.stack conf s.mem with
  | mk m r =>
    rw [hs] at hr
    cases r with
    | error e => cases hr
    | ok vDb =>
      dsimp only at hr ⊢
      rw [Option.not_isSome_iff_eq_none.mp (Bool.eq_false_iff.mp hr)]
      dsimp only
      have hlast : ∀ (t : AttrState D) (db : List AttrProperty) (e : DevErrorList),
          backInMemory attr c (getProperties attr s.mem) ⟨t,db⟩ e =
            (⟨(setProperties attr c.mem c.stackBack (getProperties attr s.mem) t).1,db⟩,some e) := by
        intro t db e
        obtain ⟨outs,ho⟩ : ∃ outs, (setProperties attr c.mem c.stackBack (getProperties attr s.mem) t).2 = .ok outs :=
          (old_restored hk (congrArg Prod.snd hs) t).1
        unfold backInMemory
        dsimp only
        rw [ho]
      cases hu : dbAccess c.update (vDb.map AttPropDb.sent) s.db with
      | mk d1 r1 =>
        cases r1 with
        | none => exact .inl rfl
        | some e =>
          right
          dsimp only
          rw [hlast]
          unfold putBack
          cases hb : setProperties attr c.mem c.stackDb (getProperties attr s.mem) m with
          | mk m' r' =>
            cases r' with
            | error e' => exact .inl rfl
            | ok back =>
              dsimp only
              cases hd : dbAccess c.back (back.map AttPropDb.sent) d1 with
              | mk d2 r2 =>
                cases r2 with
                | some e' => exact .inl rfl
                | none =>
                  refine .inr ⟨m,m',vDb,back,rfl,hb,?_⟩
                  have hok := dbAccess_ok (congrArg Prod.snd hd)
                  rw [hd] at hok
                  dsimp only at hok ⊢
                  rw [hok,hu]

end Step

section Found
variable {d0 d2 : List AttrProperty} {s : AttrState D}

/-- A start finds in the database what an item has in memory, but for the flags of the bounds. -/
def found (attr : AttrDesc) (db : List AttrProperty) (s : AttrState D) : Item → Prop
  | .range p => restartText attr p db = (s.range p).str
  | i => looks i (startState D attr db) s

theorem found_congr {i : Item} (h : ∀ name ∈ i.names, startProp attr name d2 = startProp attr name d0)
    (h0 : found attr d0 s i) : found attr d2 s i := by
  cases i with
  | hardCoded | hardCodedAgain | level => trivial
  | str p =>
    refine Eq.trans ?_ h0
    dsimp only [startState]
    unfold startText
    rw [h p.name List.mem_cons_self]
  | range p =>
    have htext : ∀ db, restartText attr p db = (startProp attr p.name db).getD "Not specified" := fun _ => rfl
    have hsame : restartText attr p d2 = restartText attr p d0 := by
      rw [htext,htext,h p.name List.mem_cons_self]
    exact hsame.trans h0
  | rds =>
    have hsame : startRds D attr d2 = startRds D attr d0 := by
      refine startRds_congr ?_ ?_ <;> unfold startText
      · rw [h "delta_val" List.mem_cons_self]
      · rw [h "delta_t" (List.mem_cons_of_mem _ List.mem_cons_self)]
    unfold found looks at h0 ⊢
    dsimp only [startState] at h0 ⊢
    rw [hsame]
    exact h0
  | change p => exact (congrArg changeText (initChange_congr (h p.name List.mem_cons_self))).trans h0
  | period p => exact (congrArg (periodText p) (initPeriod_congr (h p.name List.mem_cons_self))).trans h0

theorem found_of_looks {i : Item} (h : looks i (startState D attr d0) s) : found attr d0 s i := by
  cases i with
  | range p => exact h.1
  | hardCoded | hardCodedAgain | level | str p | rds | change p | period p => exact h

/-- The flags of the bounds follow from the texts of all of them. -/
theorem looks_of_found (h0 : ∀ i, looks i (startState D attr d0) s) (h : ∀ i, found attr d2 s i) (i : Item) :
    looks i (startState D attr d2) s := by
  have hi := h i
  cases i with
  | range p =>
    have htext : ∀ q, restartText attr q d2 = restartText attr q d0 :=
      fun q => (h (.range q)).trans (h0 (.range q)).1.symm
    have hsame : startRange D attr d2 p = startRange D attr d0 p := by
      unfold startRange restartVal
      rw [htext p,htext p.opposite]
    unfold looks
    dsimp only [startState]
    rw [hsame]
    exact h0 (.range p)
  | hardCoded | hardCodedAgain | level | str p | rds | change p | period p => exact hi

end Found

section Outcome
variable {c : StoredCall D} {conf : AttributeConfig} {s : StoredState D} {m m' : AttrState D}
  {vDb back : List (AttPropDb D)} {i : Item}

/-- An item that is not treated is found as before. -/
theorem far_back (hi : i ∉ items attr) (h1 : setProperties attr c.mem c.stack conf s.mem = (m,.ok vDb))
    (h2 : setProperties attr c.mem c.stackDb (getProperties attr s.mem) m = (m',.ok back))
    (h0 : found attr s.db s.mem i) :
    found attr (updDatabase (back.map AttPropDb.sent) (dbAccess c.update (vDb.map AttPropDb.sent) s.db).1) s.mem i := by
  have hv1 := setProperties_sent (congrArg Prod.snd h1)
  have hv2 := setProperties_sent (congrArg Prod.snd h2)
  have ha1 : ∀ name ∈ i.names, actionOf name (vDb.map AttPropDb.sent) = none :=
    fun _ hn => setProperties_far (congrArg Prod.snd h1) hi hn
  refine found_congr (fun name hn => ?_) h0
  have hfirst : propInList name (dbAccess c.update (vDb.map AttPropDb.sent) s.db).1 = propInList name s.db := by
    have hkind : (∀ name ∈ i.names, actionOf name (vDb.map AttPropDb.sent) ≠ some .del) ∨
        (∀ name ∈ i.names, ∀ v, actionOf name (vDb.map AttPropDb.sent) ≠ some (.upd v)) := by
      refine .inl fun name hn => ?_
      rw [ha1 name hn]
      exact nofun
    rcases dbAccess_between c.update s.db hv1 hkind with h | h
    · exact h name hn
    · rw [h name hn,ha1 name hn]
      rfl
  rw [startProp_eq,startProp_eq,propInList_updDatabase _ _ _ hv2,setProperties_far (congrArg Prod.snd h2) hi hn,hfirst]
  rfl

/-- An item of which the request and the old configuration have been set is found as before. -/
theorem item_back (hi : i ∈ items attr) (h1 : setProperties attr c.mem c.stack conf s.mem = (m,.ok vDb))
    (h2 : setProperties attr c.mem c.stackDb (getProperties attr s.mem) m = (m',.ok back))
    (hk : itemKept attr c.mem c.stackDb s.mem i) (hw : itemWritten attr c conf s.mem i)
    (h0 : looks i (startState D attr s.db) s.mem) :
    found attr (updDatabase (back.map AttPropDb.sent) (dbAccess c.update (vDb.map AttPropDb.sent) s.db).1) s.mem i := by
  obtain ⟨t,out1,ht,ho1,hs1,ha1⟩ := setProperties_out (congrArg Prod.snd h1) hi
  obtain ⟨u,out2,hu,ho2,-,ha2⟩ := setProperties_out (congrArg Prod.snd h2) hi
  have hput := putBack_item s.db c.update (setProperties_sent (congrArg Prod.snd h1))
    (setProperties_sent (congrArg Prod.snd h2)) ho1 (itemSetter_names i ho2) ha1 ha2
  rw [h1] at hs1
  have hum := (sameItem_equivalence i).trans hu hs1
  cases i with
  | hardCoded | hardCodedAgain | level => trivial
  | str p =>
    have ht' : t.str p = s.mem.str p := ht
    have hu' : u.str p = (setOneStrProp attr.toAttr p (conf.str p) (t.str p)).1 := hum.trans (Function.update_self ..)
    cases ho1
    cases ho2
    rw [hu',ht'] at hput
    exact str_back hk hw hput h0
  | range p =>
    have ht' : t.range p = s.mem.range p := ht
    have hu' : u.range p = (setOneAlarmProp attr p c.mem (c.stack p) (conf.range p) (t.range p)).1 :=
      hum.trans (Function.update_self ..)
    change (setOneAlarmProp attr p c.mem (c.stack p) (conf.range p) (t.range p)).2.map _ = _ at ho1
    change (setOneAlarmProp attr p c.mem (c.stackDb p) (s.mem.range p).str (u.range p)).2.map _ = _ at ho2
    rw [ht'] at ho1 hu'
    rw [hu'] at ho2
    obtain ⟨l1,hl1,rfl⟩ := except_map_ok.mp ho1
    obtain ⟨l2,hl2,rfl⟩ := except_map_ok.mp ho2
    exact range_back hk hw (Prod.ext rfl hl1) hl2 hput h0.1
  | rds =>
    have ht' : t.rds = s.mem.rds := ht
    have hu' : u.rds = (setRdsProp attr conf.rds t.rds).1 := hum
    change (setRdsProp attr conf.rds t.rds).2 = _ at ho1
    change (setRdsProp attr (rdsTexts s.mem.rds) u.rds).2 = _ at ho2
    rw [ht'] at ho1 hu'
    rw [hu'] at ho2
    exact rds_back hk hw (Prod.ext rfl ho1) ho2 hput h0
  | change p =>
    have ht' : t.change p = s.mem.change p := ht
    have hu' : u.change p = (setOneEventProp attr p (conf.change p) (t.change p)).1 :=
      hum.trans (Function.update_self ..)
    change (setOneEventProp attr p (conf.change p) (t.change p)).2 = _ at ho1
    change (setOneEventProp attr p (changeText (s.mem.change p)) (u.change p)).2 = _ at ho2
    rw [ht'] at ho1 hu'
    rw [hu'] at ho2
    exact change_back hw (Prod.ext rfl ho1) (Prod.ext rfl ho2) hput h0
  | period p =>
    have ht' : t.period p = s.mem.period p := ht
    have hu' : u.period p = (setOneEventPeriod D attr p (conf.period p) (t.period p)).1 :=
      hum.trans (Function.update_self ..)
    change (setOneEventPeriod D attr p (conf.period p) (t.period p)).2 = _ at ho1
    change (setOneEventPeriod D attr p (periodText p (s.mem.period p)) (u.period p)).2 = _ at ho2
    rw [ht'] at ho1 hu'
    rw [hu'] at ho2
    exact period_back hw (Prod.ext rfl ho1) (Prod.ext rfl ho2) hput h0

/-- A configuration that is refused is not stored. -/
theorem refused_db (h : refused attr (c.call attr conf s) conf s.mem = true) :
    (setUpdStored attr c conf s).1.db = s.db := by
  unfold refused StoredCall.call at h
  unfold setUpdStored
  dsimp only at h ⊢
  cases hs : setProperties attr c.mem c.stack conf s.mem with
  | mk m r =>
    rw [hs] at h
    cases r with
    | error e => rfl
    | ok vDb =>
      obtain ⟨e,he⟩ := Option.isSome_iff_exists.mp h
      dsimp only at he ⊢
      rw [he]
      rfl

/-- A call that fails leaves memory as it was, and what a start makes of the database. -/
theorem failed_call_looks (ha : Agreed attr s) (hr : Restorable attr c conf s) (hf : Failed attr c conf s) (i : Item) :
    looks i (setUpdStored attr c conf s).1.mem s.mem ∧
      looks i (startState D attr (setUpdStored attr c conf s).1.db) s.mem := by
  cases href : refused attr (c.call attr conf s) conf s.mem with
  | true =>
    have hmem : (setUpdStored attr c conf s).1.mem = (setUpdProperties attr (c.call attr conf s) conf s.mem).1 :=
      congrArg Prod.fst setUpdStored_call
    rw [hmem,refused_db href]
    exact ⟨refused_call_looks href hr.memory i,ha i⟩
  | false =>
    obtain ⟨e,he,hne⟩ := hf
    rcases accepted_cases href hr.memory with hn | hcorrupted | ⟨m,m',vDb,back,h1,h2,hs⟩
    · cases hn.symm.trans he
    · exact absurd (Option.some.inj (he.symm.trans hcorrupted)) hne
    · rw [hs]
      have hmem : ∀ j, looks j (setProperties attr c.mem c.stackBack (getProperties attr s.mem) m').1 s.mem := by
        intro j
        by_cases hj : j ∈ items attr
        · exact (old_restored hr.memory (congrArg Prod.snd h1) m').2 j hj
        · have h1' : sameItem j (setProperties attr c.mem c.stack conf s.mem).1 s.mem := setProperties_keeps hj s.mem
          have h2' : sameItem j (setProperties attr c.mem c.stackDb (getProperties attr s.mem) m).1 m :=
            setProperties_keeps hj m
          rw [h1] at h1'
          rw [h2] at h2'
          have heq := sameItem_equivalence (D := D) j
          exact looks_of_same (heq.trans (setProperties_keeps hj m') (heq.trans h2' h1'))
      refine ⟨hmem i,looks_of_found ha (fun j => ?_) i⟩
      by_cases hj : j ∈ items attr
      · obtain ⟨hkept,hwritten⟩ := hr.database href j hj
        exact item_back hj h1 h2 hkept hwritten (ha j)
      · exact far_back hj h1 h2 (found_of_looks (ha j))

end Outcome

section Runs
variable {s : StoredState D} {last : StoredCall D × AttributeConfig}

/-- A call of `set_upd_properties` as a step. -/
def storedStep (attr : AttrDesc) (s : StoredState D) (call : StoredCall D × AttributeConfig) : StoredState D :=
  (setUpdStored attr call.1 call.2 s).1

/-- A call that fails finds a configuration that can be set again; any other one leaves the database in
agreement with memory. -/
def Lasting (attr : AttrDesc) (s : StoredState D) (call : StoredCall D × AttributeConfig) : Prop :=
  (Failed attr call.1 call.2 s → Restorable attr call.1 call.2 s) ∧
    (¬ Failed attr call.1 call.2 s → Agreed attr (storedStep attr s call))

theorem lasting_agreed (ha : Agreed attr s) (h : Lasting attr s last) : Agreed attr (storedStep attr s last) := by
  by_cases hf : Failed attr last.1 last.2 s
  · intro i
    obtain ⟨hmem,hdb⟩ := failed_call_looks ha (h.1 hf) hf i
    have heq := looks_equivalence (D := D) i
    exact heq.trans hdb (heq.symm hmem)
  · exact h.2 hf

/-- The update is carried out and then fails; the old values reach the database. -/
def outage : StoredCall wholeNumbers where
  mem := sampleCall.mem
  stack := sampleCall.stack
  stackDb := sampleCall.stackDb
  stackBack := sampleCall.stackBack
  update := ⟨some ⟨thrown "API_CorbaException" "no answer" "db_access",true⟩,none⟩
  back := ⟨none,none⟩

def storedSample : StoredState wholeNumbers := ⟨plainState sampleAttr,[]⟩

theorem storedSample_agreed : Agreed sampleAttr storedSample := by
  intro i
  cases i with
  | hardCoded | hardCodedAgain | level => trivial
  | str p | change p | period p => cases p <;> rfl
  | range p => cases p <;> exact ⟨rfl,rfl⟩
  | rds => exact ⟨rfl,rfl⟩

theorem outage_restorable : Restorable sampleAttr outage (sampleConf "5" "10") storedSample := by
  refine ⟨plainState_kept,fun _ i hi => ⟨plainState_kept i hi,?_⟩⟩
  cases i with
  | hardCoded | hardCodedAgain | level => trivial
  | str p => exact .inl (by cases p <;> rfl)
  | range p =>
    dsimp only [itemWritten]
    unfold rangeWritten
    cases p with
    | minValue | maxValue =>
      rw [if_neg (by decide)]
      rfl
    | minAlarm | maxAlarm | minWarning | maxWarning =>
      rw [if_pos (by decide)]
      exact .inl rfl
  | rds =>
    dsimp only [itemWritten]
    unfold rdsWritten
    dsimp only
    rw [if_neg (by decide)]
    rfl
  | change p =>
    dsimp only [itemWritten]
    unfold changeWritten
    dsimp only
    rw [if_pos (by cases p <;> rfl)]
    exact .inl (by cases p <;> rfl)
  | period p =>
    dsimp only [itemWritten]
    unfold periodWritten
    dsimp only
    rw [if_pos (by cases p <;> rfl)]
    cases p <;> rfl

end Runs

end CppTango.Device.Conf
