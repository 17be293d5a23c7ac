import CppTango.Lib.Text
import CppTango.Polling.Properties

namespace CppTango.Polling.Properties

open CppTango.Polling.PoolConf

theorem lower_lower (s : Text) : lower (lower s) = lower s := by
  unfold lower
  rw [List.map_map]
  exact List.map_congr_left (fun c _ => Lib.toLower_twice c)

theorem nul_not_mem_cStr (s : Text) : '\x00' ∉ cStr s := by
  intro hm
  have := List.mem_takeWhile_imp hm
  simp at this

theorem cStr_of_nul_free {s : Text} (h : '\x00' ∉ s) : cStr s = s := by
  unfold cStr
  rw [List.takeWhile_eq_self_iff]
  intro c hc
  have hne : c ≠ '\x00' := fun he => h (he ▸ hc)
  simpa using hne

theorem nul_not_mem_key (s : Text) : '\x00' ∉ key s :=
  not_mem_lower (by decide) (nul_not_mem_cStr s)

theorem key_key (s : Text) : key (key s) = key s := by
  have hc : cStr (key s) = key s := cStr_of_nul_free (nul_not_mem_key s)
  calc key (key s) = lower (key s) := by rw [key,hc]
    _ = key s := lower_lower (cStr s)

theorem key_objName (r : Request) : key r.objName = r.objName := by
  cases r <;> exact key_key _

section Step
variable {d : Database} {idl : Nat} {s : State} (h : Started s)
include h

theorem started_set_period {type : PollObjType} {objName upd : Text} {objs : List (PollObjType × Text)}
    (hn : ∀ b ∈ s.mem (nonAutoList type), key b ≠ key objName) (hnd : objs.Nodup)
    (hlow : ∀ o ∈ objs, key o.2 = o.2)
    (hauto : ∀ o ∈ objs, o ∈ s.pollObjs ∨ o = (type,objName)) :
    Started { written s (polledList type) (setPeriod objName upd (s.mem (polledList type))) with
      pollObjs := objs } := by
  have hm := mirrored_set_period h.mirrored type objName upd hn
  refine ⟨⟨hm.same,hm.even,hm.once,hm.apart⟩,hnd,hlow,?_⟩
  intro o ho b hb
  have hnon : (written s (polledList type) (setPeriod objName upd (s.mem (polledList type)))).mem
      (nonAutoList o.1) = s.mem (nonAutoList o.1) :=
    Function.update_of_ne (polled_ne_non_auto type o.1).symm _ _
  have hb' : b ∈ s.mem (nonAutoList o.1) := hnon ▸ hb
  rcases hauto o ho with hin | rfl
  · exact h.auto o hin b hb'
  · exact hn b hb'

theorem started_add {objType : ObjType} {name : Text} {upd : Nat}
    (hl : Legal idl s (.addObjPolling objType name upd))
    (hc : Clean d idl s (.addObjPolling objType name upd)) :
    Started (step d idl s (.addObjPolling objType name upd)) := by
  have hkey := key_objName (.addObjPolling objType name upd)
  simp only [step]
  simp only [Legal] at hl
  simp only [Clean] at hc
  generalize pollType idl (.addObjPolling objType name upd) = type at hl hc ⊢
  generalize (Request.addObjPolling objType name upd).objName = objName at hkey hl hc ⊢
  have hnd : (s.pollObjs ++ [(type,objName)]).Nodup := by
    rw [List.nodup_append]
    refine ⟨h.nodup,by simp,?_⟩
    rintro a ha b hb rfl
    rw [List.mem_singleton.mp hb] at ha
    exact hl ha
  have hmem : ∀ o ∈ s.pollObjs ++ [(type,objName)], o ∈ s.pollObjs ∨ o = (type,objName) := by
    intro o ho
    simpa using ho
  have hlow : ∀ o ∈ s.pollObjs ++ [(type,objName)], key o.2 = o.2 := by
    intro o ho
    rcases hmem o ho with hin | rfl
    · exact h.lowered o hin
    · exact hkey
  by_cases hp : ∃ b ∈ s.mem (nonAutoList type), key b = key objName
  · obtain ⟨rfl,hput⟩ := hc hp
    have hput' : d.keepsEmpty = false ∨ others objName (s.mem (nonAutoList .pollCmd)) ≠ [] := by
      refine hput.imp_right ?_
      rintro ⟨b,hb,hk⟩
      exact List.ne_nil_of_mem (List.mem_filter.mpr ⟨hb,by simpa using hk⟩)
    have hsub : ∀ b ∈ others objName (s.mem (nonAutoList .pollCmd)),
        b ∈ s.mem (nonAutoList .pollCmd) ∧ key b ≠ key objName := by
      intro b hb
      obtain ⟨hin,hk⟩ := List.mem_filter.mp hb
      exact ⟨hin,by simpa using hk⟩
    rw [add_present d .pollCmd objName s hp]
    have hw := put_written d s .nonAutoPolledCmd hput'
    have hm : Mirrored (written s (nonAutoList .pollCmd) (others objName (s.mem (nonAutoList .pollCmd)))) :=
      mirrored_non_auto h.mirrored (fun a ha b hb => h.mirrored.apart .pollCmd a ha b (hsub b hb).1)
    simp only [nonAutoList] at hw hm hsub ⊢
    rw [hw]
    refine ⟨⟨hm.same,hm.even,hm.once,hm.apart⟩,hnd,hlow,?_⟩
    rintro ⟨type',name'⟩ ho b hb
    cases type' with
    | pollCmd =>
      have hb' : b ∈ others objName (s.mem .nonAutoPolledCmd) := by
        simpa [written,nonAutoList] using hb
      rcases hmem _ ho with hin | he
      · exact h.auto _ hin b (hsub b hb').1
      · cases he
        exact (hsub b hb').2
    | pollAttr =>
      have hb' : b ∈ s.mem .nonAutoPolledAttr := by
        simpa [written,nonAutoList] using hb
      rcases hmem _ ho with hin | he
      · exact h.auto _ hin b hb'
      · cases he
  · have hn : ∀ b ∈ s.mem (nonAutoList type), key b ≠ key objName := fun b hb hk => hp ⟨b,hb,hk⟩
    rw [add_absent d type objName s (h.mirrored.even type) hn]
    exact started_set_period h hn hnd hlow hmem

theorem started_upd {objType : ObjType} {name : Text} {upd : Nat}
    (hl : Legal idl s (.updObjPollingPeriod objType name upd)) :
    Started (step d idl s (.updObjPollingPeriod objType name upd)) := by
  simp only [step]
  simp only [Legal] at hl
  rw [upd_written d _ _ s (h.mirrored.even _)]
  exact started_set_period h (h.auto _ hl) h.nodup h.lowered (fun o ho => Or.inl ho)

theorem started_rem {objType : ObjType} {name : Text}
    (hl : Legal idl s (.remObjPolling objType name)) :
    Started (step d idl s (.remObjPolling objType name)) := by
  have hkey := key_objName (.remObjPolling objType name)
  simp only [step]
  simp only [Legal] at hl
  generalize pollType idl (.remObjPolling objType name) = type at hl ⊢
  generalize (Request.remObjPolling objType name).objName = objName at hkey hl ⊢
  have hin : ∀ o ∈ s.pollObjs.erase (type,objName), o ∈ s.pollObjs := fun o ho =>
    List.mem_of_mem_erase ho
  have hnd := h.nodup.erase (type,objName)
  have hlow : ∀ o ∈ s.pollObjs.erase (type,objName), key o.2 = o.2 := fun o ho =>
    h.lowered o (hin o ho)
  have heven := h.mirrored.even type
  rw [rem_written]
  cases hr : removePair objName (s.mem (polledList type)) with
  | some list =>
    obtain ⟨he,hs,-⟩ := remove_pair_some objName heven hr
    have hm : Mirrored (written s (polledList type) list) := by
      refine mirrored_polled h.mirrored he ((hs.map key).nodup (h.mirrored.once type)) ?_
      exact fun a ha b hb => h.mirrored.apart type a (hs.subset ha) b hb
    refine ⟨⟨hm.same,hm.even,hm.once,hm.apart⟩,hnd,hlow,?_⟩
    intro o ho b hb
    have hnon : (written s (polledList type) list).mem (nonAutoList o.1) = s.mem (nonAutoList o.1) :=
      Function.update_of_ne (polled_ne_non_auto type o.1).symm _ _
    exact h.auto o (hin o ho) b (hnon ▸ hb)
  | none =>
    have hnone := remove_pair_none objName heven hr
    have hany : ¬ (s.mem (nonAutoList type)).any (fun other => key other = key objName) = true := by
      rw [List.any_eq_true]
      rintro ⟨b,hb,hk⟩
      exact h.auto _ hl b hb (by simpa using hk)
    simp only [if_neg hany]
    have hm : Mirrored (written s (nonAutoList type) (s.mem (nonAutoList type) ++ [objName])) := by
      refine mirrored_non_auto h.mirrored (fun a ha b hb => ?_)
      rcases List.mem_append.mp hb with hb | hb
      · exact h.mirrored.apart type a ha b hb
      · rw [List.mem_singleton.mp hb]
        exact fun hk => hnone (hk ▸ List.mem_map_of_mem ha)
    refine ⟨⟨hm.same,hm.even,hm.once,hm.apart⟩,hnd,hlow,?_⟩
    intro o ho b hb
    by_cases ht : o.1 = type
    · have hown : (written s (nonAutoList type) (s.mem (nonAutoList type) ++ [objName])).mem
          (nonAutoList o.1) = s.mem (nonAutoList type) ++ [objName] := by
        rw [ht]
        exact Function.update_self _ _ _
      have hb' : b ∈ s.mem (nonAutoList type) ++ [objName] := hown ▸ hb
      rcases List.mem_append.mp hb' with hb' | hb'
      · exact h.auto o (hin o ho) b (ht ▸ hb')
      · rw [List.mem_singleton.mp hb',hkey,hlow o ho]
        intro he
        have heq : o = (type,objName) := Prod.ext ht he.symm
        rw [heq] at ho
        exact (h.nodup.not_mem_erase) ho
    · have hother : (written s (nonAutoList type) (s.mem (nonAutoList type) ++ [objName])).mem
          (nonAutoList o.1) = s.mem (nonAutoList o.1) :=
        Function.update_of_ne (fun he => ht (non_auto_inj he)) _ _
      exact h.auto o (hin o ho) b (hother ▸ hb)

theorem started_step {r : Request} (hl : Legal idl s r) (hc : Clean d idl s r) :
    Started (step d idl s r) := by
  cases r with
  | addObjPolling objType name upd => exact started_add h hl hc
  | updObjPollingPeriod objType name upd => exact started_upd h hl
  | remObjPolling objType name => exact started_rem h hl

/-- A request that is not clean leaves database and memory apart. -/
theorem not_mirrored_of_not_clean {r : Request} (hc : ¬ Clean d idl s r) :
    ¬ Mirrored (step d idl s r) := by
  cases r with
  | updObjPollingPeriod objType name upd => exact absurd trivial hc
  | remObjPolling objType name => exact absurd trivial hc
  | addObjPolling objType name upd =>
    simp only [Clean] at hc
    simp only [step]
    generalize pollType idl (.addObjPolling objType name upd) = type at hc ⊢
    generalize (Request.addObjPolling objType name upd).objName = objName at hc ⊢
    rw [Classical.not_imp] at hc
    obtain ⟨hp,hbad⟩ := hc
    rw [add_present d type objName s hp]
    intro hm
    have hsame := hm.same (nonAutoList type)
    cases type with
    | pollCmd =>
      have hk : d.keepsEmpty = true := by
        by_contra hk
        exact hbad ⟨rfl,Or.inl (by simpa using hk)⟩
      have hempty : others objName (s.mem .nonAutoPolledCmd) = [] := by
        refine List.filter_eq_nil_iff.mpr (fun b hb hne => ?_)
        exact hbad ⟨rfl,Or.inr ⟨b,hb,by simpa using hne⟩⟩
      simp [putProperty,setList,nonAutoList,hempty,hk] at hsame
    | pollAttr =>
      have hold := h.mirrored.same .nonAutoPolledAttr
      obtain ⟨b,hb,hkb⟩ := hp
      have hne : s.mem .nonAutoPolledAttr ≠ [] := List.ne_nil_of_mem hb
      rw [if_neg hne] at hold
      simp only [putProperty,setList,nonAutoList,Function.update_self,
        Function.update_of_ne (show PropName.nonAutoPolledAttr ≠ .nonAutoPolledCmd by decide),
        hold] at hsame
      split at hsame
      · cases hsame
      · have hlen := congrArg List.length (Option.some.inj hsame)
        rw [List.length_map,List.length_map] at hlen
        exact (others_length objName).mp hlen.symm b hb hkb

end Step

section NulFree

/-- No string of the four lists has a NUL in it. -/
def NulFree (s : State) : Prop := ∀ p, ∀ t ∈ s.mem p, '\x00' ∉ t

/-- The properties are the lists of the memory, character by character. -/
def Exact (s : State) : Prop := ∀ p, s.db p = if s.mem p = [] then none else some (s.mem p)

theorem exact_of_nul_free {s : State} (h : Mirrored s) (hn : NulFree s) : Exact s := by
  intro p
  have hid : (s.mem p).map cStr = s.mem p := by
    conv_rhs => rw [← List.map_id (s.mem p)]
    exact List.map_congr_left (fun t ht => cStr_of_nul_free (hn p t ht))
  rw [h.same p,hid]

theorem digits_nul_free (n : Nat) : '\x00' ∉ Nat.toDigits 10 n := by
  intro hm
  have := Nat.isDigit_of_mem_toDigits (by decide) (by decide) hm
  revert this
  decide

theorem mem_set_period {objName upd t : Text} {l : List Text} (h : t ∈ setPeriod objName upd l) :
    t ∈ l ∨ t = objName ∨ t = upd := by
  induction l using names.induct with
  | case1 => simpa [setPeriod] using h
  | case2 a => exact Or.inl h
  | case3 a b rest ih =>
    rw [setPeriod] at h
    split at h
    · rcases List.mem_cons.mp h with rfl | h
      · exact Or.inl List.mem_cons_self
      · rcases List.mem_cons.mp h with rfl | h
        · exact Or.inr (Or.inr rfl)
        · exact Or.inl (List.mem_cons_of_mem _ (List.mem_cons_of_mem _ h))
    · rcases List.mem_cons.mp h with rfl | h
      · exact Or.inl List.mem_cons_self
      · rcases List.mem_cons.mp h with rfl | h
        · exact Or.inl (List.mem_cons_of_mem _ List.mem_cons_self)
        · exact (ih h).imp_left (fun hr => List.mem_cons_of_mem _ (List.mem_cons_of_mem _ hr))

theorem remove_pair_sublist {objName : Text} {l l' : List Text} (h : removePair objName l = some l') :
    l'.Sublist l := by
  induction l using names.induct generalizing l' with
  | case1 => cases h
  | case2 a => cases h
  | case3 a b rest ih =>
    rw [removePair] at h
    split at h
    · cases h
      exact (List.sublist_cons_self b rest).trans (List.sublist_cons_self a _)
    · obtain ⟨l₁,h₁,rfl⟩ := Option.map_eq_some_iff.mp h
      exact ((ih h₁).cons_cons b).cons_cons a

theorem nul_free_written {s : State} (h : NulFree s) {p : PropName} {list : List Text}
    (hl : ∀ t ∈ list, '\x00' ∉ t) : NulFree (written s p list) := by
  intro q t ht
  by_cases hq : q = p
  · subst hq
    have hown : (written s q list).mem q = list := Function.update_self _ _ _
    exact hl t (hown ▸ ht)
  · have hother : (written s p list).mem q = s.mem q := Function.update_of_ne hq _ _
    exact h q t (hother ▸ ht)

variable {d : Database} {idl : Nat} {s : State}

/-- Only a changed period brings a NUL into the lists. -/
theorem nul_free_step (h : Started s) (hn : NulFree s) {r : Request} (hl : Legal idl s r)
    (hr : ∀ objType name upd, r ≠ .updObjPollingPeriod objType name upd) :
    NulFree (step d idl s r) := by
  have hobj : '\x00' ∉ r.objName := by
    cases r <;> exact nul_not_mem_key _
  cases r with
  | updObjPollingPeriod objType name upd => exact absurd rfl (hr objType name upd)
  | addObjPolling objType name upd =>
    simp only [step]
    generalize pollType idl (.addObjPolling objType name upd) = type at hl ⊢
    generalize (Request.addObjPolling objType name upd).objName = objName at hobj hl ⊢
    by_cases hp : ∃ b ∈ s.mem (nonAutoList type), key b = key objName
    · rw [add_present d type objName s hp]
      have hw : NulFree (written s (nonAutoList type) (others objName (s.mem (nonAutoList type)))) :=
        nul_free_written hn (fun t ht => hn _ t (List.mem_of_mem_filter ht))
      exact hw
    · have hna : ∀ b ∈ s.mem (nonAutoList type), key b ≠ key objName := fun b hb hk => hp ⟨b,hb,hk⟩
      rw [add_absent d type objName s (h.mirrored.even type) hna]
      refine nul_free_written hn (fun t ht => ?_)
      rcases mem_set_period ht with hm | rfl | rfl
      · exact hn _ t hm
      · exact hobj
      · exact digits_nul_free upd
  | remObjPolling objType name =>
    simp only [step]
    generalize pollType idl (.remObjPolling objType name) = type at hl ⊢
    generalize (Request.remObjPolling objType name).objName = objName at hobj hl ⊢
    rw [rem_written]
    cases hrem : removePair objName (s.mem (polledList type)) with
    | some list =>
      exact nul_free_written hn (fun t ht => hn _ t ((remove_pair_sublist hrem).subset ht))
    | none =>
      simp only
      split
      · exact hn
      · refine nul_free_written hn (fun t ht => ?_)
        rcases List.mem_append.mp ht with hm | hm
        · exact hn _ t hm
        · rw [List.mem_singleton.mp hm]
          exact hobj

end NulFree

section Runs
variable (d : Database) (idl : Nat)

/-- A property of every state of a run. -/
def EveryState (P : State → Prop) : State → List Request → Prop
  | s,[] => P s
  | s,r::rs => P s ∧ EveryState P (step d idl s r) rs

/-- A property of every request of a run in the state it finds. -/
def EveryStep (P : State → Request → Prop) : State → List Request → Prop
  | _,[] => True
  | s,r::rs => P s r ∧ EveryStep P (step d idl s r) rs

variable {d idl} {s : State} {rs : List Request}

theorem every_mirrored_iff (h : Started s) (hl : EveryStep d idl (Legal idl) s rs) :
    EveryState d idl Mirrored s rs ↔ EveryStep d idl (Clean d idl) s rs := by
  induction rs generalizing s with
  | nil => exact iff_of_true h.mirrored trivial
  | cons r rs ih =>
    obtain ⟨hr,hrs⟩ := hl
    constructor
    · rintro ⟨-,hrest⟩
      have hc : Clean d idl s r := by
        by_contra hc
        refine not_mirrored_of_not_clean h hc ?_
        cases rs with
        | nil => exact hrest
        | cons r' rs => exact hrest.1
      exact ⟨hc,(ih (started_step h hr hc) hrs).mp hrest⟩
    · rintro ⟨hc,hrest⟩
      exact ⟨h.mirrored,(ih (started_step h hr hc) hrs).mpr hrest⟩

theorem every_exact (h : Started s) (hn : NulFree s) (hl : EveryStep d idl (Legal idl) s rs)
    (hc : EveryStep d idl (Clean d idl) s rs)
    (hr : ∀ objType name upd, .updObjPollingPeriod objType name upd ∉ rs) :
    EveryState d idl Exact s rs := by
  induction rs generalizing s with
  | nil => exact exact_of_nul_free h.mirrored hn
  | cons r rs ih =>
    obtain ⟨hl0,hls⟩ := hl
    obtain ⟨hc0,hcs⟩ := hc
    have hnext := nul_free_step (d := d) h hn hl0 (fun o n u he => hr o n u (he ▸ List.mem_cons_self))
    exact ⟨exact_of_nul_free h.mirrored hn,ih (started_step h hl0 hc0) hnext hls hcs
      (fun o n u hm => hr o n u (List.mem_cons_of_mem _ hm))⟩

end Runs

/-- Over every run of successful requests the properties mirror the lists exactly when every
request is clean. Strings are compared up to their first NUL; they are the same character by
character when no period was changed. -/
theorem polling_properties_mirrored (d : Database) (idl : Nat) (s : State) (h : Started s)
    (rs : List Request) (hl : EveryStep d idl (Legal idl) s rs) :
    (EveryState d idl Mirrored s rs ↔ EveryStep d idl (Clean d idl) s rs) ∧
      (EveryStep d idl (Clean d idl) s rs → NulFree s →
        (∀ objType name upd, .updObjPollingPeriod objType name upd ∉ rs) →
          EveryState d idl Exact s rs) :=
  ⟨every_mirrored_iff h hl,fun hc hn hr => every_exact h hn hl hc hr⟩

/-- One object polled with the period its code gives, and nothing in the properties. -/
def autoPolled (type : PollObjType) (name : String) : State where
  mem := fun _ => []
  db := fun _ => none
  pollObjs := [(type,key name.toList)]

theorem started_auto_polled (type : PollObjType) (name : String) : Started (autoPolled type name) where
  mirrored := ⟨fun _ => rfl,fun _ => rfl,fun _ => List.nodup_nil,fun _ _ _ _ hb => nomatch hb⟩
  nodup := by simp [autoPolled]
  lowered := by simp [autoPolled,key_key]
  auto := fun _ _ _ hb => nomatch hb

/-- A command taken off the polling and put back on it, and an attribute whose period changes. -/
theorem mirrored_command_and_attribute :
    EveryState ⟨false⟩ 5 Mirrored (autoPolled .pollCmd "On")
      [.remObjPolling .command "On".toList,.addObjPolling .command "On".toList 1000,
        .addObjPolling .attribute "Current".toList 500,
        .updObjPollingPeriod .attribute "current".toList 1000] := by
  refine (polling_properties_mirrored ⟨false⟩ 5 _ (started_auto_polled .pollCmd "On") _ ?_).1.mpr ?_
  · exact ⟨by decide,by decide,by decide,by decide,trivial⟩
  · refine ⟨trivial,fun _ => ⟨rfl,Or.inl rfl⟩,?_,trivial,trivial⟩
    rintro ⟨b,hb,-⟩
    cases hb

/-- An attribute put back on the polling: its list is stored as that of the commands. -/
theorem attribute_not_mirrored :
    EveryStep ⟨false⟩ 5 (Legal 5) (autoPolled .pollAttr "Current")
      [.remObjPolling .attribute "Current".toList,.addObjPolling .attribute "Current".toList 500] ∧
    ¬ EveryState ⟨false⟩ 5 Mirrored (autoPolled .pollAttr "Current")
      [.remObjPolling .attribute "Current".toList,.addObjPolling .attribute "Current".toList 500] := by
  refine ⟨⟨by decide,by decide,trivial⟩,?_⟩
  rintro ⟨-,-,hm⟩
  have hsame := hm.same .nonAutoPolledAttr
  revert hsame
  decide

end CppTango.Polling.Properties
