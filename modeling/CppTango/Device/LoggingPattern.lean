import CppTango.Client.GroupRemove
import CppTango.Device.Logging

namespace CppTango.Device.Logging
open CppTango.Client.Group (tokenize tokenize_strung)
open CppTango.Lib

section Meaning
variable (sv : Server) (env : Env) (st : State)

def allDevices : List Nat := (getClassList sv).flatMap (·.deviceList)

/-- The devices of the server's own classes. -/
def classDevices : List Nat := sv.clListPtr.flatMap (·.deviceList)

/-- The name of the device is the pattern with some text in the place of each star. -/
def Meant (p : String) (d : Nat) : Prop := d ∈ allDevices sv ∧ Stars '*' p.toList (lowerName (sv.name d))

/-- Each of the devices that are meant, once and in class order, and no others. -/
structure Lists (p : String) (l : List Nat) : Prop where
  inOrder : l.Sublist (allDevices sv)
  once : l.Nodup
  exactly : ∀ d, d ∈ l ↔ Meant sv p d

/-- A device of the classes with the name, or with an alias that is stored for it; or the server's own device. -/
def Answers (n : List Char) (d : Nat) : Prop :=
  (d ∈ classDevices sv ∧ known sv st n d = true) ∨ (d = sv.dserver ∧ lowerName (sv.name d) = n)

/-- With a star, the names that have the pieces between the stars one behind the other, none beginning before the one in
front of it, are meant. Without a star, the text is the name of a device in front of those it is a stored alias of, and it
is the alias of no device that answers when it is the name of none. -/
def Told (p : String) : Prop :=
  if '*' ∈ p.toList then
    ∀ d ∈ allDevices sv, Strung (tokenize p) (lowerName (sv.name d)) → Meant sv p d
  else
    (∀ l₁ d l₂, classDevices sv = l₁ ++ d :: l₂ → st.aliasNameLower d ≠ [] → st.aliasNameLower d = p.toList →
      ∃ e ∈ l₁ ++ [d], lowerName (sv.name e) = p.toList) ∧
    ((∀ d ∈ allDevices sv, lowerName (sv.name d) ≠ p.toList) → env.useDb = true →
      ∀ a, env.getDeviceAlias p.toList = some a → a ≠ "" → ∀ d, ¬ Answers sv st (lowerName a) d)

end Meaning

section Lookup
variable {sv : Server} {env : Env} {st : State} {n : List Char} {d : Nat}

theorem allDevices_eq (sv : Server) : allDevices sv = classDevices sv ++ [sv.dserver] := by
  unfold allDevices getClassList classDevices
  rw [List.flatMap_append]
  rfl

theorem names_nodup (sv : Server) : ((allDevices sv).map fun d => lowerName (sv.name d)).Nodup := by
  rw [allDevices_eq]
  exact sv.namesDiffer

theorem allDevices_nodup (sv : Server) : (allDevices sv).Nodup := (names_nodup sv).of_map _

theorem eq_of_name {e : Nat} (hd : d ∈ allDevices sv) (he : e ∈ allDevices sv)
    (h : lowerName (sv.name d) = lowerName (sv.name e)) : d = e :=
  List.inj_on_of_nodup_map (names_nodup sv) hd he h

theorem getDeviceListByClass_own {c : DeviceClass} (hc : c ∈ sv.clListPtr) :
    getDeviceListByClass sv c.name = some c.deviceList := by
  have hf : sv.clListPtr.find? (fun c' => c'.name = c.name) = some c := by
    obtain ⟨c',hc'⟩ : ∃ c', sv.clListPtr.find? (fun c' => c'.name = c.name) = some c' := by
      apply Option.isSome_iff_exists.mp
      rw [List.find?_isSome]
      exact ⟨c,hc,by simp⟩
    have hn : c'.name = c.name := by simpa using List.find?_some hc'
    rw [hc',List.inj_on_of_nodup_map sv.classesDiffer (List.mem_of_find?_eq_some hc') hc hn]
  unfold getDeviceListByClass
  rw [hf]
  exact if_neg (sv.notDServer c hc)

theorem classDevices_eq (sv : Server) :
    (sv.clListPtr.flatMap fun c => (getDeviceListByClass sv c.name).getD []) = classDevices sv := by
  unfold classDevices
  apply List.flatMap_congr
  intro c hc
  rw [getDeviceListByClass_own hc]
  rfl

theorem known_name (h : lowerName (sv.name d) = n) : known sv st n d = true := by
  unfold known
  rw [h]
  simp

theorem known_iff : known sv st n d = true ↔
    lowerName (sv.name d) = n ∨ st.aliasNameLower d ≠ [] ∧ st.aliasNameLower d = n := by
  unfold known
  simp

theorem core_eq : findDeviceNameCore sv st n = ((classDevices sv).find? (known sv st n)).or
    (if lowerName (sv.name sv.dserver) = n then some sv.dserver else none) := by
  have hd : ("dserver/".toList <+: n ∧ lowerName (sv.name sv.dserver) = n) ↔ lowerName (sv.name sv.dserver) = n :=
    and_iff_right_of_imp fun h => h ▸ sv.dserverName
  unfold findDeviceNameCore
  simp only [classDevices_eq,hd]
  cases (classDevices sv).find? (known sv st n) <;> rfl

/-- What is found is the first one of the classes that is known, else the server's own device. -/
theorem core_found (h : findDeviceNameCore sv st n = some d) :
    (∃ l₁ l₂, classDevices sv = l₁ ++ d :: l₂ ∧ known sv st n d = true ∧ ∀ e ∈ l₁, known sv st n e = false) ∨
      (d = sv.dserver ∧ lowerName (sv.name d) = n) := by
  rw [core_eq,Option.or_eq_some_iff] at h
  rcases h with hf | ⟨-,hd⟩
  · obtain ⟨hk,l₁,l₂,he,hl⟩ := List.find?_eq_some_iff_append.mp hf
    exact .inl ⟨l₁,l₂,he,hk,by simpa using hl⟩
  · simp only [Option.ite_none_right_eq_some,Option.some.injEq] at hd
    obtain ⟨hn,rfl⟩ := hd
    exact .inr ⟨rfl,hn⟩

theorem core_answers (h : findDeviceNameCore sv st n = some d) : Answers sv st n d := by
  rcases core_found h with ⟨l₁,l₂,he,hk,-⟩ | hd
  · exact .inl ⟨by rw [he]; simp,hk⟩
  · exact .inr hd

theorem core_none : findDeviceNameCore sv st n = none ↔ ∀ d, ¬ Answers sv st n d := by
  constructor
  · rintro h d (⟨hm,hk⟩ | ⟨rfl,hn⟩)
    · rw [core_eq,Option.or_eq_none_iff] at h
      exact List.find?_eq_none.mp h.1 d hm hk
    · rw [core_eq,Option.or_eq_none_iff,if_pos hn] at h
      exact nomatch h.2
  · intro h
    cases hf : findDeviceNameCore sv st n with
    | none => rfl
    | some d => exact absurd (core_answers hf) (h d)

theorem Answers.mem (h : Answers sv st n d) : d ∈ allDevices sv := by
  rw [allDevices_eq]
  rcases h with ⟨hd,-⟩ | ⟨rfl,-⟩
  · exact List.mem_append_left _ hd
  · simp

theorem answers_name (hd : d ∈ allDevices sv) (hn : lowerName (sv.name d) = n) : Answers sv st n d := by
  rw [allDevices_eq,List.mem_append,List.mem_singleton] at hd
  rcases hd with hd | rfl
  · exact .inl ⟨hd,known_name hn⟩
  · exact .inr ⟨rfl,hn⟩

end Lookup

section Plain
variable {sv : Server} {env : Env} {st : State} {p : String}

theorem meant_plain (hp : '*' ∉ p.toList) {d : Nat} :
    Meant sv p d ↔ d ∈ allDevices sv ∧ lowerName (sv.name d) = p.toList := by
  unfold Meant
  rw [stars_plain hp]

/-- A search that gives one device or none lists what is meant when it gives the device with the name. -/
theorem lists_plain (hp : '*' ∉ p.toList) {r : Option Nat} (hr : ∀ d, r = some d → d ∈ allDevices sv) :
    Lists sv p r.toList ↔ ∀ d ∈ allDevices sv, r = some d ↔ lowerName (sv.name d) = p.toList := by
  constructor
  · intro hl d hd
    have := hl.exactly d
    rw [Option.mem_toList,meant_plain hp] at this
    rw [this]
    exact and_iff_right hd
  · intro h
    refine ⟨?_,?_,fun d => ?_⟩
    · cases r with
      | none => exact List.nil_sublist _
      | some d => exact List.singleton_sublist.mpr (hr d rfl)
    · cases r with
      | none => exact List.nodup_nil
      | some d => exact List.nodup_singleton d
    · rw [Option.mem_toList,meant_plain hp]
      constructor
      · intro hd
        exact ⟨hr d hd,(h d (hr d hd)).mp hd⟩
      · rintro ⟨hd,hn⟩
        exact (h d hd).mpr hn

/-- The alias for which a name is looked up again. -/
def aliasName (env : Env) (p : List Char) : String := if env.useDb then (env.getDeviceAlias p).getD "" else ""

theorem aliasName_ne {q : List Char} (h : aliasName env q ≠ "") :
    env.useDb = true ∧ env.getDeviceAlias q = some (aliasName env q) := by
  unfold aliasName at h ⊢
  split at h
  · rename_i hdb
    cases ha : env.getDeviceAlias q with
    | none =>
      rw [ha] at h
      exact absurd rfl h
    | some a => exact ⟨hdb,by rw [if_pos hdb]; rfl⟩
  · exact absurd rfl h

theorem getDeviceList_plain (hp : '*' ∉ p.toList) :
    getDeviceList sv env st p =
      ((getDeviceByName sv env st p.toList).1.toList,(getDeviceByName sv env st p.toList).2) := by
  unfold getDeviceList
  rw [if_pos hp]

theorem byName_known {n : List Char} (hn : n.map Char.toLower = n) {d : Nat}
    (h : findDeviceNameCore sv st n = some d) : getDeviceByName sv env st n = (some d,st) := by
  unfold getDeviceByName
  simp only [hn,h]

theorem byName_alias {n : List Char} (hn : n.map Char.toLower = n) {d : Nat}
    (h : findDeviceNameCore sv st n = none) (ha : aliasName env n ≠ "")
    (hd : findDeviceNameCore sv st (lowerName (aliasName env n)) = some d) :
    getDeviceByName sv env st n =
      (some d,{ st with aliasNameLower := Function.update st.aliasNameLower d n }) := by
  unfold aliasName at ha hd
  unfold getDeviceByName
  simp only [hn,h,if_pos ha,hd]

theorem byName_none {n : List Char} (hn : n.map Char.toLower = n) (h : findDeviceNameCore sv st n = none)
    (ha : aliasName env n ≠ "" → findDeviceNameCore sv st (lowerName (aliasName env n)) = none) :
    getDeviceByName sv env st n = (none,st) := by
  unfold getDeviceByName
  by_cases hne : aliasName env n ≠ ""
  · have hnone := ha hne
    unfold aliasName at hne hnone
    simp only [hn,h,if_pos hne,hnone]
  · unfold aliasName at hne
    simp only [hn,h,if_neg hne]

theorem told_plain (hp : '*' ∉ p.toList) : Told sv env st p ↔
    (∀ l₁ d l₂, classDevices sv = l₁ ++ d :: l₂ → st.aliasNameLower d ≠ [] → st.aliasNameLower d = p.toList →
      ∃ e ∈ l₁ ++ [d], lowerName (sv.name e) = p.toList) ∧
    ((∀ d ∈ allDevices sv, lowerName (sv.name d) ≠ p.toList) → env.useDb = true →
      ∀ a, env.getDeviceAlias p.toList = some a → a ≠ "" → ∀ d, ¬ Answers sv st (lowerName a) d) := by
  unfold Told
  rw [if_neg hp]

/-- What is found at once has the name, when no alias stands in front of it. -/
theorem core_named (hp : '*' ∉ p.toList) (ht : Told sv env st p) {d : Nat}
    (h : findDeviceNameCore sv st p.toList = some d) : lowerName (sv.name d) = p.toList := by
  rcases core_found h with ⟨l₁,l₂,he,hk,hl⟩ | ⟨-,hn⟩
  · rcases known_iff.mp hk with hn | ⟨hne,ha⟩
    · exact hn
    · obtain ⟨e,hm,hn⟩ := ((told_plain hp).mp ht).1 l₁ d l₂ he hne ha
      rcases List.mem_append.mp hm with hm | hm
      · have := hl e hm
        rw [known_name hn] at this
        cases this
      · rwa [List.mem_singleton.mp hm] at hn
  · exact hn

theorem byName_told (hlow : p.toList.map Char.toLower = p.toList) (hp : '*' ∉ p.toList) (ht : Told sv env st p) :
    getDeviceByName sv env st p.toList = (findDeviceNameCore sv st p.toList,st) := by
  cases hf : findDeviceNameCore sv st p.toList with
  | some d => exact byName_known hlow hf
  | none =>
    refine byName_none hlow hf fun ha => core_none.mpr ?_
    obtain ⟨hdb,hal⟩ := aliasName_ne ha
    refine ((told_plain hp).mp ht).2 (fun d hd hn => ?_) hdb _ hal ha
    exact core_none.mp hf d (answers_name hd hn)

theorem plain_lists (hlow : p.toList.map Char.toLower = p.toList) (hp : '*' ∉ p.toList) (ht : Told sv env st p) :
    Lists sv p (getDeviceList sv env st p).1 := by
  rw [getDeviceList_plain hp,byName_told hlow hp ht,lists_plain hp fun d h => (core_answers h).mem]
  intro d hd
  constructor
  · intro h
    exact core_named hp ht h
  · intro hn
    cases hf : findDeviceNameCore sv st p.toList with
    | none => exact absurd (answers_name hd hn) (core_none.mp hf d)
    | some e => rw [eq_of_name (core_answers hf).mem hd ((core_named hp ht hf).trans hn.symm)]

theorem told_of_plain_lists (hlow : p.toList.map Char.toLower = p.toList) (hp : '*' ∉ p.toList)
    (h : Lists sv p (getDeviceList sv env st p).1) : Told sv env st p := by
  rw [getDeviceList_plain hp] at h
  have hin : ∀ d, (getDeviceByName sv env st p.toList).1 = some d → lowerName (sv.name d) = p.toList := by
    intro d hd
    have := (h.exactly d).mp (Option.mem_toList.mpr hd)
    exact ((meant_plain hp).mp this).2
  rw [told_plain hp]
  constructor
  · intro l₁ d l₂ he hne ha
    have hk : known sv st p.toList d = true := known_iff.mpr (.inr ⟨hne,ha⟩)
    obtain ⟨e,hfe⟩ : ∃ e, (l₁ ++ [d]).find? (known sv st p.toList) = some e := by
      rw [← Option.isSome_iff_exists,List.find?_isSome]
      exact ⟨d,by simp,hk⟩
    have hcore : findDeviceNameCore sv st p.toList = some e := by
      rw [core_eq,he,List.append_cons,List.find?_append,hfe]
      rfl
    refine ⟨e,List.mem_of_find?_eq_some hfe,hin e ?_⟩
    rw [byName_known hlow hcore]
  · intro hno hdb a ha hne d hans
    have hnone : findDeviceNameCore sv st p.toList = none := by
      cases hf : findDeviceNameCore sv st p.toList with
      | none => rfl
      | some e =>
        have := hin e (by rw [byName_known hlow hf])
        exact absurd this (hno e (core_answers hf).mem)
    have hal : aliasName env p.toList = a := by
      unfold aliasName
      rw [if_pos hdb,ha]
      rfl
    cases hf : findDeviceNameCore sv st (lowerName a) with
    | none => exact core_none.mp hf d hans
    | some e =>
      have := hin e (by rw [byName_alias hlow hnone (hal ▸ hne) (hal ▸ hf)])
      exact hno e (core_answers hf).mem this

end Plain

section Starred
variable {sv : Server} {env : Env} {st : State} {p : String}

theorem matchTokens_iff (s : List Char) (pos : Nat) (ts : List (List Char)) :
    matchTokens s pos ts = true ↔ Strung ts (s.drop pos) := by
  induction ts generalizing pos with
  | nil => exact iff_of_true rfl trivial
  | cons t ts ih =>
    rw [matchTokens,strung_cons_iff]
    cases Lib.find t (s.drop pos) with
    | none => simp
    | some i => simp [ih,List.drop_drop]

theorem getDeviceList_starred (hp : '*' ∈ p.toList) : getDeviceList sv env st p =
    ((allDevices sv).filter fun d => matchTokens (lowerName (sv.name d)) 0 (tokenize p),st) := by
  unfold getDeviceList
  rw [if_neg (not_not_intro hp)]
  by_cases hs : p = "*"
  · have ht : tokenize p = [] := by
      rw [hs]
      decide
    simp only [if_pos hs,ht,matchTokens]
    rw [List.filter_true]
    rfl
  · simp only [if_neg hs]
    unfold allDevices
    rw [List.filter_flatMap]

theorem starred_lists_iff (hp : '*' ∈ p.toList) :
    Lists sv p (getDeviceList sv env st p).1 ↔ Told sv env st p := by
  have hmem : ∀ d, d ∈ (getDeviceList sv env st p).1 ↔
      d ∈ allDevices sv ∧ Strung (tokenize p) (lowerName (sv.name d)) := by
    intro d
    rw [getDeviceList_starred hp,List.mem_filter,matchTokens_iff,List.drop_zero]
  unfold Told
  rw [if_pos hp]
  constructor
  · intro h d hd hs
    exact (h.exactly d).mp ((hmem d).mpr ⟨hd,hs⟩)
  · intro h
    refine ⟨?_,?_,fun d => ?_⟩
    · rw [getDeviceList_starred hp]
      exact List.filter_sublist
    · rw [getDeviceList_starred hp]
      exact (allDevices_nodup sv).filter _
    · rw [hmem]
      constructor
      · rintro ⟨hd,hs⟩
        exact h d hd hs
      · rintro ⟨hd,hs⟩
        exact ⟨hd,tokenize_strung hs.strung⟩

end Starred

section Listed
variable {sv : Server} {env : Env} {st : State} {p : String}

theorem lists_iff (hlow : lowerName p = p.toList) : Lists sv p (getDeviceList sv env st p).1 ↔ Told sv env st p := by
  by_cases hp : '*' ∈ p.toList
  · exact starred_lists_iff hp
  · exact ⟨told_of_plain_lists hlow hp,plain_lists hlow hp⟩

/-- No alias is learned on the way. -/
theorem told_unchanged (hlow : lowerName p = p.toList) (ht : Told sv env st p) : (getDeviceList sv env st p).2 = st := by
  by_cases hp : '*' ∈ p.toList
  · rw [getDeviceList_starred hp]
  · rw [getDeviceList_plain hp,byName_told hlow hp ht]

end Listed

section Acting
variable {α : Type} {sv : Server} {env : Env} {st : State}

/-- What a command does to the logger of a device it is about. -/
def Command.act (c : Command α) (x : α) (logger : Logger) : Except DevErrorList Logger :=
  (c.action x).bind fun act => act logger

/-- A command with several entries acts, in their order, on the devices that are meant, and on no others. -/
structure ActsOn (sv : Server) (act : α → Logger → Except DevErrorList Logger) (entries : List (String × α))
    (before : Nat → Logger) (out : Except DevErrorList Unit × State) : Prop where
  others : ∀ d, (∀ x ∈ entries, ¬ Meant sv (lowerPattern x.1) d) → out.2.logger d = before d
  done : out.1 = .ok () → ∀ d,
    Followed (fun x => Meant sv (lowerPattern x.1) d) (fun x => act x.2) entries (before d) (out.2.logger d)

theorem lowerName_lowerPattern (p : String) : lowerName (lowerPattern p) = (lowerPattern p).toList := by
  unfold lowerPattern lowerName
  rw [String.toList_ofList,List.map_map]
  exact List.map_congr_left fun c _ => toLower_twice c

variable {c : Command α} {x : String × α}

/-- An entry is refused as a whole, or the action goes through the devices of the list. -/
theorem treat_cases (c : Command α) (ht : Told sv env st (lowerPattern x.1)) :
    (∃ e, c.treat sv env x st = (.error e,st)) ∨ ∃ act logger r, c.action x.2 = .ok act ∧
      Lib.forEach (actAt act) (getDeviceList sv env st (lowerPattern x.1)).1 st.logger = (r,logger) ∧
      c.treat sv env x st = (r,{ st with logger := logger }) := by
  have hst := told_unchanged (lowerName_lowerPattern x.1) ht
  unfold Command.treat
  split
  · exact .inl ⟨_,rfl⟩
  · simp only [hst]
    split
    · exact .inl ⟨_,rfl⟩
    · split
      · exact .inl ⟨_,rfl⟩
      · split
        · exact .inl ⟨_,rfl⟩
        · rename_i act hact
          exact .inr ⟨act,_,_,hact,rfl,rfl⟩

theorem treat_aliases (ht : Told sv env st (lowerPattern x.1)) :
    (c.treat sv env x st).2.aliasNameLower = st.aliasNameLower := by
  obtain ⟨e,he⟩ | ⟨act,logger,r,-,-,he⟩ := treat_cases c ht
  · rw [he]
  · rw [he]

theorem treat_others (ht : Told sv env st (lowerPattern x.1)) {d : Nat} (hd : ¬ Meant sv (lowerPattern x.1) d) :
    (c.treat sv env x st).2.logger d = st.logger d := by
  have hl := (lists_iff (lowerName_lowerPattern x.1)).mpr ht
  obtain ⟨e,he⟩ | ⟨act,logger,r,-,hf,he⟩ := treat_cases c ht
  · rw [he]
  · have hout := acts_other act st.logger (mt (hl.exactly d).mp hd)
    rw [hf] at hout
    rw [he]
    exact hout

theorem treat_meant (ht : Told sv env st (lowerPattern x.1)) (hok : (c.treat sv env x st).1 = .ok ()) {d : Nat}
    (hd : Meant sv (lowerPattern x.1) d) : c.act x.2 (st.logger d) = .ok ((c.treat sv env x st).2.logger d) := by
  have hl := (lists_iff (lowerName_lowerPattern x.1)).mpr ht
  obtain ⟨e,he⟩ | ⟨act,logger,r,ha,hf,he⟩ := treat_cases c ht
  · rw [he] at hok
    cases hok
  · rw [he] at hok ⊢
    have hin := acts_here (f := st.logger) hl.once (by rw [hf]; exact hok) ((hl.exactly d).mpr hd)
    rw [hf] at hin
    unfold Command.act
    rw [ha]
    exact hin

/-- The aliases are as they were, so that the names are still told apart. -/
theorem Told.of_aliases {st' : State} {p : String} (h : st'.aliasNameLower = st.aliasNameLower)
    (ht : Told sv env st p) : Told sv env st' p := by
  unfold Told Answers known at ht ⊢
  rwa [h]

theorem entries_actsOn (c : Command α) {entries : List (String × α)}
    (ht : ∀ x ∈ entries, Told sv env st (lowerPattern x.1)) :
    ActsOn sv c.act entries st.logger (Lib.forEach (c.treat sv env) entries st) := by
  constructor
  · intro d hd
    refine (forEach_keeps (fun s : State => s.aliasNameLower = st.aliasNameLower ∧ s.logger d = st.logger d)
      (fun x hx s hs => ?_) ⟨rfl,rfl⟩).2
    have htx := (ht x hx).of_aliases hs.1
    exact ⟨(treat_aliases htx).trans hs.1,(treat_others htx (hd x hx)).trans hs.2⟩
  · intro hok d
    induction entries generalizing st with
    | nil => rfl
    | cons x entries ih =>
      obtain ⟨s,hs,he,hok'⟩ := forEach_ok hok
      have htx := ht x List.mem_cons_self
      have ha : s.aliasNameLower = st.aliasNameLower := by
        have := treat_aliases (c := c) htx
        rwa [hs] at this
      refine ⟨s.logger d,fun hd => ?_,fun hd => ?_,?_⟩
      · have := treat_meant (c := c) htx (by rw [hs]) hd
        rwa [hs] at this
      · have := treat_others (c := c) htx hd
        rwa [hs] at this
      · rw [he]
        exact ih (fun y hy => (ht y (List.mem_cons_of_mem _ hy)).of_aliases ha) hok'

end Acting

section Claim
variable (sv : Server) (env : Env) (st : State)

theorem killZombies_aliases : (killZombieAppenders sv env st).aliasNameLower = st.aliasNameLower := by
  unfold killZombieAppenders
  rw [getDeviceList_starred (by decide)]

theorem mem_zip_fst {α β : Type} {l : List α} {m : List β} {x : α × β} (h : x ∈ l.zip m) : x.1 ∈ l :=
  (List.of_mem_zip h).1

/-- A pattern lists the devices that are meant exactly when it is told from other names and aliases; and requests with
such patterns set the level of the devices meant, add a target to them and remove one from them, and leave the others
alone. -/
theorem wildcards_mean_iff :
    (∀ p, lowerName p = p.toList → (Lists sv p (getDeviceList sv env st p).1 ↔ Told sv env st p)) ∧
    (∀ svalue lvalue, svalue.length = lvalue.length → (∀ p ∈ svalue, Told sv env st (lowerPattern p)) →
      ActsOn sv levelCommand.act (svalue.zip lvalue) st.logger (setLoggingLevel sv env svalue lvalue st)) ∧
    (∀ argin : List String, argin.length % 2 = 0 → (∀ x ∈ pairs argin, Told sv env st (lowerPattern x.1)) →
      ActsOn sv (addCommand env).act (pairs argin) (killZombieAppenders sv env st).logger
        (addLoggingTarget sv env argin st) ∧
      ActsOn sv (removeCommand env).act (pairs argin) (killZombieAppenders sv env st).logger
        (removeLoggingTarget sv env argin st)) := by
  refine ⟨fun p hp => lists_iff hp,fun svalue lvalue hlen ht => ?_,fun argin hlen ht => ⟨?_,?_⟩⟩
  · unfold setLoggingLevel
    rw [if_neg (not_not_intro hlen)]
    exact entries_actsOn levelCommand fun x hx => ht x.1 (mem_zip_fst hx)
  · unfold addLoggingTarget
    rw [if_neg (not_not_intro hlen)]
    exact entries_actsOn (addCommand env) fun x hx => (ht x hx).of_aliases (killZombies_aliases sv env st)
  · unfold removeLoggingTarget
    rw [if_neg (not_not_intro hlen)]
    exact entries_actsOn (removeCommand env) fun x hx => (ht x hx).of_aliases (killZombies_aliases sv env st)

end Claim

section Examples

/-- Two motors, with the device of their server. -/
def motors : Server where
  clListPtr := [⟨"Motor",[0,1]⟩]
  dserver := 2
  name d := if d = 0 then "motor/x/1" else if d = 1 then "Sys/motor/1" else "dserver/motors/1"
  classesDiffer := by decide
  notDServer := by decide
  namesDiffer := by decide
  dserverName := by decide

def noDatabase : Env where
  useDb := false
  getDeviceAlias _ := none
  now := 0
  client := ⟨true,"",.cpp,1,"",0,0⟩
  locking _ := Lock.unlocked
  logPath := "/tmp".toList
  opens _ _ := true

def quiet : State where
  aliasNameLower _ := []
  logger d := ⟨motors.name d,.off,[]⟩

theorem told_sys : Told motors noDatabase quiet "sys/*" := by
  unfold Told
  rw [if_pos (by decide)]
  intro d hd hs
  have hm : matchTokens (lowerName (motors.name d)) 0 (tokenize "sys/*") = true := (matchTokens_iff _ 0 _).mpr hs
  have hall : ∀ d ∈ allDevices motors, matchTokens (lowerName (motors.name d)) 0 (tokenize "sys/*") = true → d = 1 := by
    decide
  cases hall d hd hm
  exact ⟨hd,.same (by decide) (.same (by decide) (.same (by decide) (.same (by decide) (.any "motor/1".toList .nil))))⟩

theorem sys_wildcard_means : Lists motors "sys/*" (getDeviceList motors noDatabase quiet "sys/*").1 ∧
    ActsOn motors levelCommand.act [("SYS/*",5)] quiet.logger
      (setLoggingLevel motors noDatabase ["SYS/*"] [5] quiet) ∧
    ActsOn motors (addCommand noDatabase).act [("Sys/*","console::cout")]
      (killZombieAppenders motors noDatabase quiet).logger
      (addLoggingTarget motors noDatabase ["Sys/*","console::cout"] quiet) := by
  have hall := wildcards_mean_iff motors noDatabase quiet
  refine ⟨(hall.1 "sys/*" (by decide)).mpr told_sys,hall.2.1 ["SYS/*"] [5] rfl ?_,
    (hall.2.2 ["Sys/*","console::cout"] rfl ?_).1⟩
  · intro p hp
    rw [List.mem_singleton.mp hp]
    exact told_sys
  · intro x hx
    rw [List.mem_singleton.mp hx]
    exact told_sys

/-- `motor*` reaches a device whose name does not begin with it, and the server's own device. -/
theorem motor_wildcard_reaches_others :
    ¬ Lists motors "motor*" (getDeviceList motors noDatabase quiet "motor*").1 ∧ ¬ Meant motors "motor*" 1 ∧
      ((setLoggingLevel motors noDatabase ["motor*"] [5] quiet).2.logger 1).level ≠ (quiet.logger 1).level := by
  have hm : ¬ Meant motors "motor*" 1 := by
    rintro ⟨-,hs⟩
    exact absurd (hs.head (by decide)) (by decide)
  refine ⟨fun hl => hm ((hl.exactly 1).mp (by decide)),hm,by decide⟩

end Examples

end CppTango.Device.Logging
