import CppTango.Polling.PoolConf
import CppTango.Lib.Lists

namespace CppTango.Polling.PoolCheck

open CppTango.Lib
open CppTango.Polling.PoolConf

structure Device where
  className : Text
  name : Text
  polledCmd : List Text
  polledAttr : List Text
  colon : ':' ∉ className
  ne : name ≠ []

def queryDevice (devs : List Device) : List Text :=
  devs.map (fun d => d.className ++ ':' :: ':' :: d.name)

def realDevName (s : Text) : Text := s.drop ((s.idxOf? ':').getD 0 + 2)

def isInstantiated (devs : List Device) (dev : Text) : Bool :=
  (queryDevice devs).any (fun s => decide (lower dev = lower (realDevName s)))

def getDeviceByName (devs : List Device) (dev : Text) : Option Device :=
  devs.find? (fun d => decide (lower d.name = lower dev))

def Device.isPolled (d : Device) : Bool := !(d.polledCmd.isEmpty && d.polledAttr.isEmpty)

/-- The first `stop` entries are searched for the device. -/
def isDevAlreadyInPoolConf (dev : Text) (pool : List Text) (stop : Nat) : Bool :=
  haveI := lawfulText
  (pool.take stop).any (fun e => decide (dev ∈ splitString e ','))

section Check
variable (devs : List Device)

/-- One turn of the inner loop of `check_pool_conf` over the devices of an entry. -/
def checkDevice (modConf : List Text) (stop : Nat) (modEntry dev : Text) : Text :=
  if dev <:+: modEntry then modEntry
  else if isDevAlreadyInPoolConf dev modConf stop then modEntry
  else if isInstantiated devs dev then
    match getDeviceByName devs dev with
    | none => modEntry
    | some d =>
      if d.isPolled then
        if modEntry = [] then dev else modEntry ++ ',' :: dev
      else modEntry
  else modEntry

def checkEntry (modConf : List Text) (stop : Nat) (splitted : List Text) : Text :=
  splitted.foldl (checkDevice devs modConf stop) []

/-- The loop over the entries. `done` holds those already passed, `stop` the counter that is
only decremented when the first entry of the vector is erased. -/
def checkLoop (done : List Text) (stop : Nat) : List Text → List Text
  | [] => done
  | entry::rest =>
    let stop := stop + 1
    let modEntry := checkEntry devs (done ++ entry :: rest) (stop - 1) (splitString entry ',')
    if modEntry = [] then checkLoop done (if done = [] then stop - 1 else stop) rest
    else checkLoop (done ++ [modEntry]) stop rest

/-- The devices of a surplus entry, one to each thread in turn. -/
def spread (poolSize : Nat) : List Text → Nat → List Text → List Text
  | modConf,_,[] => modConf
  | modConf,loop,dev::devs =>
    spread poolSize (modConf.modify loop (fun e => e ++ ',' :: dev))
      (if loop + 1 = poolSize then 0 else loop + 1) devs

/-- Surplus entries are read from the configuration as it was before the check. -/
def distribute (pollPoolConf : List Text) (poolSize : Nat) (modConf : List Text) : List Text :=
  let nbExtraTh := modConf.length - poolSize
  ((List.range nbExtraTh).foldl (fun mc i =>
    spread poolSize mc 0 (splitString (pollPoolConf.getD (i + poolSize) []) ',')) modConf).take poolSize

def checkPoolConf (poolSize : Nat) (pollPoolConf : List Text) : List Text :=
  if pollPoolConf = [] then pollPoolConf
  else
    let modConf := checkLoop devs [] 0 pollPoolConf
    if poolSize < modConf.length then distribute pollPoolConf poolSize modConf else modConf

/-- The devices that should stay: instantiated, with something polled. -/
def polled (dev : Text) : Bool :=
  match getDeviceByName devs dev with
  | none => false
  | some d => d.isPolled

def names (conf : List Text) : List (List Text) := conf.map (splitString · ',')

/-- No device is lost, none is repeated and no other is there. Spelling is in any case. -/
structure LosesNone (conf conf' : List Text) (poolSize : Nat) : Prop where
  size : conf'.length ≤ poolSize
  ne : ∀ e ∈ conf', e ≠ []
  once : ∀ dev, ((names conf').flatten.filter (fun e => lower e = lower dev)).length =
    if (∃ e ∈ (names conf).flatten, lower e = lower dev) ∧ polled devs dev = true then 1 else 0

/-- The devices that should stay, where they are listed for the first time. -/
def kept (conf : List Text) : List (List Text) := firsts (polled devs) [] (names conf)

/-- When the check comes past none of its slips. -/
structure Regular (conf : List Text) (poolSize : Nat) : Prop where
  /-- a device is spelled in one way -/
  spelling : ∀ e ∈ (names conf).flatten, ∀ e' ∈ (names conf).flatten, polled devs e = true →
    lower e = lower e' → e = e'
  /-- no name is contained in one kept before it in its entry -/
  apart : ∀ ks ∈ kept devs conf, ks.Pairwise (fun k e => ¬ e <:+: k)
  /-- entries with nothing to keep stand before or behind all others, and when there are more
  of these than threads, the surplus ones are kept as they are -/
  gap : ∃ n ks m, kept devs conf = List.replicate n [] ++ ks ++ List.replicate m [] ∧
    (∀ k ∈ ks, k ≠ []) ∧
    (poolSize < ks.length → n = 0 ∧ ((names conf).take ks.length).drop poolSize = ks.drop poolSize)

section Devices
variable {devs}

theorem real_dev_name (d : Device) : realDevName (d.className ++ ':' :: ':' :: d.name) = d.name := by
  rw [realDevName,idxOf?_append_sep d.colon]
  simp

/-- An instantiated device is always found by its name. -/
theorem instantiated_iff {dev : Text} :
    isInstantiated devs dev = true ↔ (getDeviceByName devs dev).isSome = true := by
  unfold isInstantiated getDeviceByName queryDevice
  simp only [List.any_map,List.any_eq_true,Function.comp_apply,real_dev_name,decide_eq_true_eq,
    List.find?_isSome]
  exact ⟨fun ⟨d,hd,he⟩ => ⟨d,hd,he.symm⟩,fun ⟨d,hd,he⟩ => ⟨d,hd,he.symm⟩⟩

theorem polled_congr {dev dev' : Text} (h : lower dev = lower dev') :
    polled devs dev = polled devs dev' := by
  unfold polled getDeviceByName
  rw [h]

theorem ne_of_polled {dev : Text} (h : polled devs dev = true) : dev ≠ [] := by
  rintro rfl
  unfold polled at h
  split at h
  · cases h
  · rename_i d hd
    have hl := List.find?_some hd
    have hn := d.ne
    simp [lower] at hl
    exact hn hl

theorem checkDevice_eq (modConf : List Text) (stop : Nat) (modEntry dev : Text) :
    checkDevice devs modConf stop modEntry dev =
      if dev <:+: modEntry ∨ isDevAlreadyInPoolConf dev modConf stop = true ∨ polled devs dev = false
      then modEntry
      else if modEntry = [] then dev else modEntry ++ ',' :: dev := by
  unfold checkDevice polled
  by_cases h1 : dev <:+: modEntry
  · simp [h1]
  · by_cases h2 : isDevAlreadyInPoolConf dev modConf stop = true
    · simp [h1,h2]
    · cases hg : getDeviceByName devs dev with
      | none => simp [h1]
      | some d =>
        have hi : isInstantiated devs dev = true := instantiated_iff.mpr (by rw [hg]; rfl)
        cases hp : d.isPolled <;> simp [h1,h2,hi,hp]

end Devices

section Entry
variable {devs}

theorem joined_snoc {l : List Text} (h : l ≠ []) (e : Text) :
    joined (l ++ [e]) = joined l ++ ',' :: e := by
  induction l with
  | nil => exact absurd rfl h
  | cons a l ih =>
    cases l with
    | nil => simp [joined]
    | cons b l =>
      have hs := ih (List.cons_ne_nil _ _)
      unfold joined at hs ⊢
      rw [List.cons_append,List.cons_append,List.intercalate_cons_cons,← List.cons_append,hs,
        List.intercalate_cons_cons]
      simp

theorem joined_eq_nil {l : List Text} (h : ∀ e ∈ l, e ≠ []) : joined l = [] ↔ l = [] := by
  constructor
  · intro hj
    cases l with
    | nil => rfl
    | cons a l =>
      have ha := h a List.mem_cons_self
      cases l <;> simp [joined,ha] at hj
  · rintro rfl
    rfl

/-- The loop over an entry keeps what is listed for the first time. `acc` is what it has kept. -/
theorem fold_check {modConf : List Text} {stop : Nat} (es acc s : List Text)
    (hacc : ∀ e ∈ acc, e ≠ []) (hc : ∀ e ∈ es, ',' ∉ e)
    (hs : ∀ x, x ∈ s ↔ x ∈ acc ∨ isDevAlreadyInPoolConf x modConf stop = true)
    (hpw : (acc ++ firstsIn (polled devs) s es).Pairwise (fun k e => ¬ e <:+: k)) :
    es.foldl (checkDevice devs modConf stop) (joined acc) =
      joined (acc ++ firstsIn (polled devs) s es) := by
  induction es generalizing acc s with
  | nil => simp [firstsIn]
  | cons e es ih =>
    obtain ⟨hec,hcs⟩ := List.forall_mem_cons.mp hc
    rw [List.foldl_cons,checkDevice_eq]
    by_cases hnew : polled devs e = true ∧ e ∉ s
    · have hne := ne_of_polled hnew.1
      rw [firstsIn,if_pos hnew] at hpw ⊢
      have hnot : ¬ e <:+: joined acc := by
        rw [infix_joined hne hec]
        rintro ⟨k,hk,hi⟩
        exact (List.pairwise_append.mp hpw).2.2 k hk e List.mem_cons_self hi
      have halready : ¬ isDevAlreadyInPoolConf e modConf stop = true :=
        fun ha => hnew.2 ((hs e).mpr (Or.inr ha))
      have hkeep : (if joined acc = [] then e else joined acc ++ ',' :: e) = joined (acc ++ [e]) := by
        by_cases ha : acc = []
        · simp [ha,joined]
        · rw [if_neg (fun hj => ha ((joined_eq_nil hacc).mp hj)),joined_snoc ha]
      rw [if_neg (by simp [hnot,halready,hnew.1]),hkeep]
      rw [List.append_cons acc e (firstsIn (polled devs) (e :: s) es)] at hpw ⊢
      refine ih (acc ++ [e]) (e :: s) ?_ hcs ?_ hpw
      · intro x hx
        rcases List.mem_append.mp hx with hm | hm
        · exact hacc x hm
        · rw [List.mem_singleton.mp hm]
          exact hne
      · intro x
        rw [List.mem_cons,hs x,List.mem_append,List.mem_singleton]
        tauto
    · rw [firstsIn,if_neg hnew] at hpw ⊢
      have hskip : e <:+: joined acc ∨ isDevAlreadyInPoolConf e modConf stop = true ∨
          polled devs e = false := by
        by_cases hp : polled devs e = true
        · have hseen : e ∈ s := by
            by_contra hn
            exact hnew ⟨hp,hn⟩
          rcases (hs e).mp hseen with ha | ha
          · exact Or.inl ((infix_joined (ne_of_polled hp) hec acc).mpr ⟨e,ha,List.infix_rfl⟩)
          · exact Or.inr (Or.inl ha)
        · exact Or.inr (Or.inr (by simpa using hp))
      rw [if_pos hskip]
      exact ih acc s hacc hcs hs hpw

end Entry

section Loop
variable {devs}

/-- Entries that are lists of names, each of them read back from its text. -/
def Readable (ls : List (List Text)) : Prop := ∀ l ∈ ls, l ≠ [] ∧ ∀ e ∈ l, e ≠ [] ∧ ',' ∉ e

theorem names_joined {ls : List (List Text)} (h : Readable ls) : names (ls.map joined) = ls := by
  unfold names
  rw [List.map_map]
  conv_rhs => rw [← List.map_id ls]
  refine List.map_congr_left (fun l hl => ?_)
  obtain ⟨hne,he⟩ := h l hl
  exact List.splitOn_intercalate ',' (fun e hm => (he e hm).2) hne

theorem already_iff {pool : List Text} {stop : Nat} {x : Text} :
    isDevAlreadyInPoolConf x pool stop = true ↔ x ∈ (names (pool.take stop)).flatten := by
  unfold isDevAlreadyInPoolConf names
  simp only [List.any_eq_true,decide_eq_true_eq,List.mem_flatten,List.mem_map]
  constructor
  · rintro ⟨entry,hm,hx⟩
    exact ⟨_,⟨entry,hm,rfl⟩,hx⟩
  · rintro ⟨_,⟨entry,hm,rfl⟩,hx⟩
    exact ⟨entry,hm,hx⟩

theorem names_cons (entry : Text) (rest : List Text) :
    names (entry :: rest) = splitString entry ',' :: names rest := rfl

/-- When everything worth keeping is kept already, the rest of the entries goes. -/
theorem loop_trailing {ds : List (List Text)} (hds : Readable ds) {stop : Nat}
    (hstop : ds.length ≤ stop) (rest : List Text)
    (h : ∀ e ∈ (names rest).flatten, polled devs e = true → e ∈ ds.flatten) :
    checkLoop devs (ds.map joined) stop rest = ds.map joined := by
  induction rest generalizing stop with
  | nil => rfl
  | cons entry rest ih =>
    rw [names_cons,List.flatten_cons] at h
    have hempty : ∀ es : List Text, (∀ e ∈ es, polled devs e = true → e ∈ ds.flatten) →
        es.foldl (checkDevice devs (ds.map joined ++ entry :: rest) stop) [] = [] := by
      intro es hes
      induction es with
      | nil => rfl
      | cons e es ihe =>
        have hskip : e <:+: [] ∨ isDevAlreadyInPoolConf e (ds.map joined ++ entry :: rest) stop = true ∨
            polled devs e = false := by
          by_cases hp : polled devs e = true
          · refine Or.inr (Or.inl (already_iff.mpr ?_))
            have hin := hes e List.mem_cons_self hp
            rw [← names_joined hds] at hin
            rw [List.take_append,List.take_of_length_le (by simpa using hstop)]
            unfold names at hin ⊢
            rw [List.map_append,List.flatten_append]
            exact List.mem_append_left _ hin
          · exact Or.inr (Or.inr (by simpa using hp))
        rw [List.foldl_cons,checkDevice_eq,if_pos hskip]
        exact ihe (fun x hx => hes x (List.mem_cons_of_mem _ hx))
    have hentry := hempty _ (fun e he => h e (List.mem_append_left _ he))
    simp only [checkLoop,checkEntry,Nat.add_sub_cancel,hentry,if_true]
    refine ih ?_ (fun e he => h e (List.mem_append_right _ he))
    split <;> omega

/-- While there is something to keep, an entry becomes the devices listed there first. -/
theorem loop_kept {ds ks : List (List Text)} {seen conf : List Text} {m : Nat} (hds : Readable ds)
    (hseen : ∀ x, x ∈ seen ↔ x ∈ ds.flatten)
    (hk : firsts (polled devs) seen (names conf) = ks ++ List.replicate m [])
    (hne : ∀ k ∈ ks, k ≠ []) (hpw : ∀ k ∈ ks, k.Pairwise (fun k e => ¬ e <:+: k)) :
    checkLoop devs (ds.map joined) ds.length conf = (ds ++ ks).map joined := by
  induction ks generalizing ds seen conf with
  | nil =>
    rw [List.append_nil]
    refine loop_trailing hds (Nat.le_refl _) conf (fun e he hp => ?_)
    by_contra hn
    have hmem : e ∈ (firsts (polled devs) seen (names conf)).flatten :=
      mem_firsts.mpr ⟨he,hp,fun hs => hn ((hseen e).mp hs)⟩
    rw [hk] at hmem
    simp at hmem
  | cons k ks ih =>
    obtain ⟨hk0,hks⟩ := List.forall_mem_cons.mp hne
    obtain ⟨hp0,hps⟩ := List.forall_mem_cons.mp hpw
    cases conf with
    | nil => simp [names,firsts] at hk
    | cons entry rest =>
      rw [names_cons,firsts,List.cons_append,List.cons.injEq] at hk
      obtain ⟨hfirst,hrest⟩ := hk
      have hread : ∀ e ∈ k, e ≠ [] ∧ ',' ∉ e := by
        intro e he
        rw [← hfirst,mem_firstsIn] at he
        exact ⟨ne_of_polled he.2.1,not_mem_of_mem_splitOn he.1⟩
      have hentry : checkEntry devs (ds.map joined ++ entry :: rest) ds.length (splitString entry ',') =
          joined k := by
        have hs : ∀ x, x ∈ seen ↔ x ∈ ([] : List Text) ∨
            isDevAlreadyInPoolConf x (ds.map joined ++ entry :: rest) ds.length = true := by
          intro x
          rw [already_iff,List.take_left' (by simp),names_joined hds,hseen x]
          simp
        have hf := fold_check (splitString entry ',') [] seen (by simp) (fun e he => not_mem_of_mem_splitOn he) hs
          (by rw [List.nil_append,hfirst]; exact hp0)
        rw [List.nil_append,hfirst] at hf
        exact hf
      have hj : joined k ≠ [] := fun h0 => hk0 ((joined_eq_nil (fun e he => (hread e he).1)).mp h0)
      simp only [checkLoop,Nat.add_sub_cancel,hentry,if_neg hj]
      have hds' : Readable (ds ++ [k]) := by
        intro l hl
        rcases List.mem_append.mp hl with hm | hm
        · exact hds l hm
        · rw [List.mem_singleton.mp hm]
          exact ⟨hk0,hread⟩
      have hnext := @ih (ds ++ [k]) (k ++ seen) rest hds' ?_ (by rw [← hfirst] at *; exact hrest) hks hps
      · rw [List.map_append,List.map_cons,List.map_nil,List.length_append,List.length_singleton] at hnext
        rw [hnext,List.append_assoc]
        rfl
      · intro x
        rw [List.mem_append,hseen x,List.flatten_append,List.mem_append]
        simp [or_comm]

/-- Entries with nothing to keep in front of all others leave no trace. -/
theorem loop_leading {conf : List Text} {n : Nat} {ks : List (List Text)}
    (h : kept devs conf = List.replicate n [] ++ ks) :
    checkLoop devs [] 0 conf = checkLoop devs [] 0 (conf.drop n) ∧ kept devs (conf.drop n) = ks := by
  induction n generalizing conf with
  | zero => exact ⟨rfl,by simpa using h⟩
  | succ n ih =>
    cases conf with
    | nil => simp [kept,names,firsts,List.replicate_succ] at h
    | cons entry rest =>
      rw [kept,names_cons,firsts,List.replicate_succ,List.cons_append,List.cons.injEq] at h
      obtain ⟨hfirst,hrest⟩ := h
      rw [hfirst,List.nil_append] at hrest
      have hentry : checkEntry devs (entry :: rest) 0 (splitString entry ',') = [] := by
        have hf := fold_check (splitString entry ',') [] [] (by simp)
          (fun e he => not_mem_of_mem_splitOn he)
          (show ∀ x, x ∈ ([] : List Text) ↔ x ∈ ([] : List Text) ∨
            isDevAlreadyInPoolConf x (entry :: rest) 0 = true by simp [isDevAlreadyInPoolConf])
          (by rw [hfirst]; simp)
        rw [hfirst] at hf
        exact hf
      have hstep : checkLoop devs [] 0 (entry :: rest) = checkLoop devs [] 0 rest := by
        simp only [checkLoop,List.nil_append,Nat.add_sub_cancel,hentry,if_true]
      rw [hstep]
      exact ih hrest

/-- The first loop leaves the entries that have something to keep, with just that. -/
theorem loop_spec {conf : List Text} {n m : Nat} {ks : List (List Text)}
    (h : kept devs conf = List.replicate n [] ++ ks ++ List.replicate m [])
    (hne : ∀ k ∈ ks, k ≠ []) (hpw : ∀ k ∈ kept devs conf, k.Pairwise (fun k e => ¬ e <:+: k)) :
    checkLoop devs [] 0 conf = ks.map joined := by
  rw [List.append_assoc] at h
  obtain ⟨hl,hk⟩ := loop_leading h
  rw [hl]
  have hr : Readable ([] : List (List Text)) := by
    intro l hl
    cases hl
  refine loop_kept hr (by simp) hk hne (fun k hk => hpw k ?_)
  rw [h]
  exact List.mem_append_right _ (List.mem_append_left _ hk)

end Loop

section Surplus

theorem flatten_modify {ls : List (List Text)} {i : Nat} (h : i < ls.length) (e : Text) :
    (ls.modify i (fun l => l ++ [e])).flatten.Perm (ls.flatten ++ [e]) := by
  induction ls generalizing i with
  | nil => cases h
  | cons l ls ih =>
    cases i with
    | zero =>
      simp only [List.modify_zero_cons,List.flatten_cons,List.append_assoc]
      exact List.perm_append_comm.append_left l
    | succ i =>
      simp only [List.modify_succ_cons,List.flatten_cons,List.append_assoc]
      exact (ih (Nat.lt_of_succ_lt_succ h)).append_left l

theorem modify_joined {ls : List (List Text)} (hne : ∀ l ∈ ls, l ≠ []) (i : Nat) (e : Text) :
    (ls.map joined).modify i (fun t => t ++ ',' :: e) =
        (ls.modify i (fun l => l ++ [e])).map joined ∧
      ∀ l ∈ ls.modify i (fun l => l ++ [e]), l ≠ [] := by
  induction ls generalizing i with
  | nil => simp
  | cons l ls ih =>
    obtain ⟨hl,hls⟩ := List.forall_mem_cons.mp hne
    cases i with
    | zero =>
      simp only [List.map_cons,List.modify_zero_cons,joined_snoc hl]
      exact ⟨trivial,List.forall_mem_cons.mpr ⟨by simp,hls⟩⟩
    | succ i =>
      obtain ⟨hmap,hrest⟩ := ih hls i
      simp only [List.map_cons,List.modify_succ_cons,hmap]
      exact ⟨trivial,List.forall_mem_cons.mpr ⟨hl,hrest⟩⟩

/-- The devices of an entry go to the threads in front, nothing else changes. -/
theorem spread_spec {p : Nat} (es : List Text) {ls : List (List Text)} {loop : Nat}
    (hne : ∀ l ∈ ls, l ≠ []) (hp : p ≤ ls.length) (hloop : loop < p) :
    ∃ ls' : List (List Text), spread p (ls.map joined) loop es = ls'.map joined ∧ (∀ l ∈ ls', l ≠ []) ∧
      ls'.length = ls.length ∧ (ls'.take p).flatten.Perm ((ls.take p).flatten ++ es) := by
  induction es generalizing ls loop with
  | nil => exact ⟨ls,rfl,hne,rfl,by simp⟩
  | cons e es ih =>
    obtain ⟨hmap,hne'⟩ := modify_joined hne loop e
    have hnext : (if loop + 1 = p then 0 else loop + 1) < p := by
      split <;> omega
    obtain ⟨ls',hs,hn,hl,hperm⟩ := ih hne' (by simpa using hp) hnext
    refine ⟨ls',?_,hn,by simpa using hl,?_⟩
    · rw [spread,hmap,hs]
    · refine hperm.trans ?_
      have hmod : ((ls.modify loop (fun l => l ++ [e])).take p).flatten.Perm ((ls.take p).flatten ++ [e]) := by
        rw [List.take_modify]
        exact flatten_modify (by simp; omega) e
      refine (hmod.append_right es).trans ?_
      simp

theorem distribute_fold {p : Nat} (hp : 0 < p) (conf : List Text) {ls : List (List Text)}
    (hne : ∀ l ∈ ls, l ≠ []) (hl : p ≤ ls.length) (k : Nat) :
    ∃ ls' : List (List Text), (List.range k).foldl (fun mc i =>
        spread p mc 0 (splitString (conf.getD (i + p) []) ',')) (ls.map joined) = ls'.map joined ∧
      (∀ l ∈ ls', l ≠ []) ∧ ls'.length = ls.length ∧
      (ls'.take p).flatten.Perm ((ls.take p).flatten ++
        (List.range k).flatMap (fun i => splitString (conf.getD (i + p) []) ',')) := by
  induction k with
  | zero => exact ⟨ls,rfl,hne,rfl,by simp⟩
  | succ k ih =>
    obtain ⟨ls₁,hs₁,hne₁,hl₁,hperm₁⟩ := ih
    obtain ⟨ls₂,hs₂,hne₂,hl₂,hperm₂⟩ :=
      spread_spec (splitString (conf.getD (k + p) []) ',') hne₁ (hl₁ ▸ hl) hp
    refine ⟨ls₂,?_,hne₂,hl₂.trans hl₁,?_⟩
    · rw [List.range_succ,List.foldl_append,hs₁]
      exact hs₂
    · rw [List.range_succ,List.flatMap_append,← List.append_assoc]
      refine hperm₂.trans ?_
      simpa using hperm₁.append_right _

theorem surplus_names {conf : List Text} {p k : Nat} (h : k ≤ conf.length) :
    (List.range (k - p)).flatMap (fun i => splitString (conf.getD (i + p) []) ',') =
      (((names conf).take k).drop p).flatten := by
  rw [List.flatMap_def]
  congr 1
  apply List.ext_getElem
  · simp [names]
    omega
  · intro i hi hi'
    simp only [List.length_map,List.length_range] at hi
    have hlt : i + p < conf.length := by omega
    simp [names,List.getD,hlt,Nat.add_comm p i]

end Surplus

section Counting
variable {devs}

theorem count_spelled {l : List Text} (hn : l.Nodup)
    (hs : ∀ e ∈ l, ∀ e' ∈ l, lower e = lower e' → e = e') (dev : Text) :
    (l.filter (fun e => lower e = lower dev)).length =
      if ∃ e ∈ l, lower e = lower dev then 1 else 0 := by
  by_cases h : ∃ e ∈ l, lower e = lower dev
  · obtain ⟨e,he,hl⟩ := h
    rw [if_pos ⟨e,he,hl⟩,List.length_eq_one_iff]
    refine ⟨e,?_⟩
    have hfilter : l.filter (fun x => lower x = lower dev) = l.filter (fun x => x == e) := by
      refine List.filter_congr (fun x hx => ?_)
      rw [Bool.eq_iff_iff,decide_eq_true_iff,beq_iff_eq]
      constructor
      · exact fun hd => hs x hx e he (hd.trans hl.symm)
      · rintro rfl
        exact hl
    rw [hfilter,List.filter_beq,List.count_eq_one_of_mem hn he]
    rfl
  · rw [if_neg h,List.length_eq_zero_iff,List.filter_eq_nil_iff]
    intro e he hl
    exact h ⟨e,he,by simpa using hl⟩

/-- Whatever order the kept devices end in, each is there once and no other is. -/
theorem loses_none {conf : List Text} {poolSize : Nat} {ls : List (List Text)}
    (hs : ∀ e ∈ (names conf).flatten, ∀ e' ∈ (names conf).flatten, polled devs e = true →
      lower e = lower e' → e = e')
    (hne : ∀ l ∈ ls, l ≠ []) (hsize : ls.length ≤ poolSize)
    (hperm : ls.flatten.Perm (kept devs conf).flatten) :
    LosesNone devs conf (ls.map joined) poolSize := by
  have hmem : ∀ e, e ∈ (kept devs conf).flatten ↔ e ∈ (names conf).flatten ∧ polled devs e = true := by
    intro e
    rw [kept,mem_firsts]
    simp
  have hread : Readable ls := by
    intro l hl
    refine ⟨hne l hl,fun e he => ?_⟩
    obtain ⟨hin,hp⟩ := (hmem e).mp (hperm.mem_iff.mp (List.mem_flatten.mpr ⟨l,hl,he⟩))
    obtain ⟨_,hm,hx⟩ := List.mem_flatten.mp hin
    obtain ⟨entry,-,rfl⟩ := List.mem_map.mp hm
    exact ⟨ne_of_polled hp,not_mem_of_mem_splitOn hx⟩
  refine ⟨by simpa using hsize,?_,?_⟩
  · intro t ht
    obtain ⟨l,hl,rfl⟩ := List.mem_map.mp ht
    exact fun hj => hne l hl ((joined_eq_nil (fun e he => ((hread l hl).2 e he).1)).mp hj)
  · intro dev
    have hn : (kept devs conf).flatten.Nodup := nodup_firsts _ _
    rw [names_joined hread,(hperm.filter _).length_eq,count_spelled hn]
    · refine if_congr ⟨?_,?_⟩ rfl rfl
      · rintro ⟨e,he,hl⟩
        obtain ⟨hin,hp⟩ := (hmem e).mp he
        exact ⟨⟨e,hin,hl⟩,(polled_congr hl).symm.trans hp⟩
      · rintro ⟨⟨e,hin,hl⟩,hp⟩
        exact ⟨e,(hmem e).mpr ⟨hin,(polled_congr hl).trans hp⟩,hl⟩
    · intro e he e' he' hl
      obtain ⟨hin,hp⟩ := (hmem e).mp he
      exact hs e hin e' ((hmem e').mp he').1 hp hl

end Counting

/-- A pool configuration that takes the check past none of its slips loses no polled device,
repeats none and keeps no other, in at most as many entries as there are threads. -/
theorem check_pool_conf_loses_none (poolSize : Nat) (hpool : 1 ≤ poolSize) (conf : List Text)
    (h : Regular devs conf poolSize) : LosesNone devs conf (checkPoolConf devs poolSize conf) poolSize := by
  obtain ⟨n,ks,m,hkept,hne,hsurplus⟩ := h.gap
  have hflat : (kept devs conf).flatten = ks.flatten := by
    rw [hkept]
    simp
  have hloop := loop_spec hkept hne h.apart
  have hlen : ks.length ≤ conf.length := by
    have hl := congrArg List.length hkept
    simp only [kept,length_firsts,names,List.length_map,List.length_append] at hl
    omega
  unfold checkPoolConf
  split
  · rename_i h0
    subst h0
    have hk : ks = [] := List.length_eq_zero_iff.mp (Nat.le_zero.mp hlen)
    subst hk
    have hempty : LosesNone devs [] (([] : List (List Text)).map joined) poolSize :=
      loses_none h.spelling (by simp) (Nat.zero_le _) (by rw [hflat])
    exact hempty
  · simp only [hloop]
    split
    · rename_i hmore
      simp only [List.length_map] at hmore
      obtain ⟨-,hsame⟩ := hsurplus hmore
      obtain ⟨ls,hs,hn,hl,hperm⟩ := distribute_fold hpool conf hne (Nat.le_of_lt hmore)
        (ks.length - poolSize)
      rw [surplus_names hlen,hsame,← List.flatten_append,List.take_append_drop] at hperm
      have hd : distribute conf poolSize (ks.map joined) = (ls.take poolSize).map joined := by
        rw [distribute,List.length_map,hs,List.map_take]
      rw [hd]
      refine loses_none h.spelling (fun l hx => hn l (List.mem_of_mem_take hx)) ?_ ?_
      · rw [List.length_take]
        exact Nat.min_le_left _ _
      · rw [hflat]
        exact hperm
    · rename_i hfew
      simp only [List.length_map,Nat.not_lt] at hfew
      exact loses_none h.spelling hne hfew (by rw [hflat])

end Check

def polledDevice (name : String) (h : name.toList ≠ []) : Device where
  className := "TangoTest".toList
  name := name.toList
  polledCmd := []
  polledAttr := ["double_scalar".toList,"1000".toList]
  colon := by decide
  ne := h

def threeDevices : List Device :=
  [polledDevice "sys/tg/1" (by decide),polledDevice "sys/tg/2" (by decide),
    polledDevice "sys/tg/3" (by decide)]

/-- An undefined device beside the first one, and more entries than threads. -/
theorem three_devices_two_threads :
    LosesNone threeDevices ["sys/tg/1,sys/old/1".toList,"sys/tg/2".toList,"sys/tg/3".toList]
      (checkPoolConf threeDevices 2 ["sys/tg/1,sys/old/1".toList,"sys/tg/2".toList,"sys/tg/3".toList]) 2 :=
  check_pool_conf_loses_none threeDevices 2 (by decide) _
    ⟨by decide +kernel,by decide +kernel,
      0,[["sys/tg/1".toList],["sys/tg/2".toList],["sys/tg/3".toList]],0,
      by decide +kernel,by decide,fun _ => ⟨rfl,by decide +kernel⟩⟩

/-- Behind an entry that is not the first and goes, the next one goes too, with its device. -/
theorem polled_device_lost :
    ¬ LosesNone threeDevices ["sys/tg/1".toList,"sys/old/1".toList,"sys/tg/2".toList]
      (checkPoolConf threeDevices 3 ["sys/tg/1".toList,"sys/old/1".toList,"sys/tg/2".toList]) 3 := by
  intro h
  have hlost := h.once "sys/tg/2".toList
  revert hlost
  decide +kernel

end CppTango.Polling.PoolCheck
