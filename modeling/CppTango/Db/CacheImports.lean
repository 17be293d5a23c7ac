import CppTango.Db.CacheAnswers

namespace CppTango.Db

open CppTango.Lib CppTango.Device

section Model

structure DevVarLongStringArray where
  lvalue : List Int
  svalue : List String
deriving DecidableEq, Repr

/-- What an import gives; without indexes, or behind the end of the array, nothing that has a
meaning. -/
abbrev ImportReply := Option (Except DevErrorList DevVarLongStringArray)

def notInCache (origin : String) : DevErrorList := thrown "aaa" "bbb" origin

variable (c : DbServerCache)

/-- The numbers and texts from some indexes on, with empty texts up to five. -/
def DbServerCache.imported (first nb number last : Nat) : ImportReply :=
  match c.dataList[number]?,c.dataList[last]? with
  | some s,some t =>
    if first + nb ≤ c.dataList.length then
      some (.ok ⟨[atoi s,atoi t],c.strs first nb ++ List.replicate (5 - nb) ""⟩)
    else none
  | _,_ => none

def DbServerCache.importAdmDev : ImportReply :=
  let lastIndex := if 109 ≤ c.procRelease then 2 else 1
  if c.impAdm.lastIdx = lastIndex then some (.error (notInCache "DbServerCache::import_adm_dev"))
  else c.imported c.impAdm.firstIdx 5 (c.impAdm.firstIdx + 5) c.impAdm.lastIdx

def DbServerCache.importNotifdEvent : ImportReply :=
  match c.impNotifdEvent with
  | none => none
  | some ev =>
    if ev.lastIdx = ev.firstIdx + 1 then some (.error (notInCache "DbServerCache::import_notifd_event"))
    else c.imported ev.firstIdx 4 (ev.firstIdx + 4) ev.lastIdx

/-- The second number is read at the last index of the other channel. -/
def DbServerCache.importAdmEvent : ImportReply :=
  match c.impAdmEvent,c.impNotifdEvent with
  | some ev,some notifd =>
    if ev.lastIdx = ev.firstIdx + 1 then some (.error (notInCache "DbServerCache::import_adm_event"))
    else c.imported ev.firstIdx 4 (ev.firstIdx + 4) notifd.lastIdx
  | _,_ => none

end Model

section Blocks

/-- What the database sends for a server: its admin device is not defined, or all its blocks. -/
inductive Sent where
  | undefined (release : Option (Nat × Nat)) (name : String)
  | defined (conf : Config)

def releaseStrings : Option (Nat × Nat) → List String
  | none => []
  | some (major,minor) => [releaseText major minor]

def Sent.strings : Sent → List String
  | .undefined release name => releaseStrings release ++ [name,"Not Found"]
  | .defined conf => conf.strings

/-- The first string says what release there is. -/
def releasedAs (release : Option (Nat × Nat)) (name : String) : Prop :=
  match release with
  | none => NoRelease name
  | some (major,minor) => (0 < major ∨ 0 < minor ∧ minor < 109) ∧ major * 100 + minor < 2 ^ 31

def Sent.Released : Sent → Prop
  | .undefined release name => releasedAs release name
  | .defined conf => conf.Released

def AdmImport.data (adm : AdmImport) : DevVarLongStringArray :=
  ⟨[atoi (adm.info.getD 4 ""),atoi (adm.info.getD 6 "")],adm.name :: adm.info.take 4⟩

/-- The last string of a block. -/
def EventConf.last (e : EventConf) : String := e.strings.getLastD ""

/-- What the block of a channel says. -/
def EventConf.reply (origin : String) : EventConf → Except DevErrorList DevVarLongStringArray
  | .notFound _ => .error (notInCache origin)
  | .found name ior info _ _ =>
    .ok ⟨[atoi (info.getD 2 ""),atoi (info.getD 3 "")],name :: ior :: info.take 2 ++ [""]⟩

/-- Every import that has a block gives what the block says. -/
def ReadsOwnBlocks (c : DbServerCache) : Sent → Prop
  | .undefined _ _ => c.importAdmDev = some (.error (notInCache "DbServerCache::import_adm_dev"))
  | .defined conf =>
    c.importAdmDev = some (.ok conf.adm.data) ∧
      c.importNotifdEvent = some (conf.notifdEvent.reply "DbServerCache::import_notifd_event") ∧
      c.importAdmEvent = some (conf.admEvent.reply "DbServerCache::import_adm_event")

def EventConf.isFound : EventConf → Bool
  | .notFound _ => false
  | .found _ _ _ _ _ => true

/-- No admin device is missing with a release below 1.9, and a channel that is found has the same
last number as the block of the other channel. -/
def ImportsRight : Sent → Prop
  | .undefined release _ =>
    ∀ major minor, release = some (major,minor) → 109 ≤ major * 100 + minor
  | .defined conf => conf.admEvent.isFound = true → atoi conf.notifdEvent.last = atoi conf.admEvent.last

end Blocks

section Constructor
variable {conf : Config} {c : DbServerCache}

/-- What the constructor has stored of the first blocks. -/
structure DbServerCache.Imports (c : DbServerCache) (conf : Config) (start : Nat) : Prop where
  list : c.dataList = conf.strings
  adm : c.impAdm = ⟨start,start + 7⟩
  admPlace : Placed conf.strings start (conf.adm.name :: conf.adm.info)
  notifd : c.impNotifdEvent = some ⟨start + 8,start + 7 + conf.notifdEvent.strings.length⟩
  notifdPlace : Placed conf.strings (start + 8) conf.notifdEvent.strings
  event : c.impAdmEvent = some ⟨start + 8 + conf.notifdEvent.strings.length,
    start + 7 + conf.notifdEvent.strings.length + conf.admEvent.strings.length⟩
  eventPlace : Placed conf.strings (start + 8 + conf.notifdEvent.strings.length) conf.admEvent.strings

theorem imports_of_constructor (hr : conf.Released) (hc : dbServerCache conf.strings = some c) :
    ∃ start, c.Imports conf start := by
  obtain ⟨rel,hrel,-,hstart⟩ := release_of_strings hr
  have hlong := length_config conf
  have h0 : Placed conf.strings conf.releaseStrings.length _ := placed_append _ _
  generalize conf.releaseStrings.length = start at *
  have h1 := h0.right
  rw [List.length_cons,conf.adm.seven] at h1
  have hev := eventIndexes_placed conf.notifdEvent _ h1.left
  have h2 := placed_next h1 rfl
  have hev' := eventIndexes_placed conf.admEvent _ h2.left
  unfold dbServerCache at hc
  rw [hrel] at hc
  simp only [bind,Option.bind_some,pure] at hc
  rw [hstart,if_neg (by omega),hev,Option.bind_some,hev',Option.bind_some] at hc
  obtain ⟨d,-,hc⟩ := Option.bind_eq_some_iff.mp hc
  obtain ⟨f,-,hc⟩ := Option.bind_eq_some_iff.mp hc
  obtain ⟨a,-,hc⟩ := Option.bind_eq_some_iff.mp hc
  obtain ⟨n,-,hc⟩ := Option.bind_eq_some_iff.mp hc
  obtain ⟨cl,-,hc⟩ := Option.bind_eq_some_iff.mp hc
  obtain ⟨ctrl,-,hc⟩ := Option.bind_eq_some_iff.mp hc
  cases hc
  refine ⟨start,rfl,rfl,h0.left,rfl,h1.left,?_,?_⟩
  · simp only [Option.some.injEq,EltIdx.mk.injEq]
    exact ⟨by omega,trivial⟩
  · rw [show start + 8 + conf.notifdEvent.strings.length =
      start + 7 + conf.notifdEvent.strings.length + 1 by omega]
    exact h2.left

end Constructor

section Reading

theorem last_placed {list : List String} {e : EventConf} {first : Nat} (h : Placed list first e.strings) :
    list[first + e.strings.length - 1]? = some e.last := by
  cases e with
  | notFound name => exact h.get (k := 1) rfl
  | found name ior info hf hi =>
    obtain ⟨a,b,n,m,rfl⟩ : ∃ a b n m, info = [a,b,n,m] := by
      match info,hi with
      | [a,b,n,m],_ => exact ⟨a,b,n,m,rfl⟩
    exact h.get (k := 5) rfl

variable {c : DbServerCache} {list : List String} (hc : c.dataList = list)
include hc

/-- Texts and numbers that stand in the array are read as they are. -/
theorem imported_placed {first number last : Nat} {texts : List String} {s t : String}
    (h : Placed list first texts) (hne : texts ≠ []) (hs : list[number]? = some s)
    (ht : list[last]? = some t) :
    c.imported first texts.length number last =
      some (.ok ⟨[atoi s,atoi t],texts ++ List.replicate (5 - texts.length) ""⟩) := by
  have hroom : first + texts.length ≤ list.length := by
    have := h.length_le
    rw [List.length_drop] at this
    have := List.length_pos_of_ne_nil hne
    omega
  unfold DbServerCache.imported
  rw [hc,hs,ht]
  simp only
  rw [if_pos hroom,strs_of_placed hc h]

/-- The import of a channel, with its second number read at some place. -/
theorem event_imported {e : EventConf} {first last : Nat} {t : String} (origin : String)
    (h : Placed list first e.strings) (ht : list[last]? = some t) :
    (if first + e.strings.length - 1 = first + 1 then some (.error (notInCache origin))
      else c.imported first 4 (first + 4) last) =
      some ((e.reply origin).map (fun data => ⟨[data.lvalue.getD 0 0,atoi t],data.svalue⟩)) := by
  cases e with
  | notFound name => exact if_pos rfl
  | found name ior info hf hi =>
    obtain ⟨a,b,n,m,rfl⟩ : ∃ a b n m, info = [a,b,n,m] := by
      match info,hi with
      | [a,b,n,m],_ => exact ⟨a,b,n,m,rfl⟩
    have hthree : Placed list first ([name,ior,a,b] ++ [n,m]) := h
    rw [if_neg (by simp [EventConf.strings])]
    exact imported_placed hc hthree.left (List.cons_ne_nil _ _) (h.get (k := 4) rfl) ht

end Reading

section Imports
variable {c : DbServerCache} {conf : Config} {start : Nat}

theorem adm_imported (h : c.Imports conf start) : c.importAdmDev = some (.ok conf.adm.data) := by
  have hinfo := conf.adm.seven
  have hp := h.admPlace
  have hdata : conf.adm.data = ⟨[atoi (conf.adm.info.getD 4 ""),atoi (conf.adm.info.getD 6 "")],
    conf.adm.name :: conf.adm.info.take 4⟩ := rfl
  obtain ⟨a,b,e,d,n,x,m,hi⟩ : ∃ a b e d n x m, conf.adm.info = [a,b,e,d,n,x,m] := by
    match hl : conf.adm.info,hinfo with
    | [a,b,e,d,n,x,m],_ => exact ⟨a,b,e,d,n,x,m,rfl⟩
  rw [hdata]
  rw [hi] at hp ⊢
  have hfive : Placed conf.strings start ([conf.adm.name,a,b,e,d] ++ [n,x,m]) := hp
  unfold DbServerCache.importAdmDev
  rw [h.adm]
  simp only
  rw [if_neg (by split; omega; omega)]
  exact imported_placed h.list hfive.left (List.cons_ne_nil _ _) (hp.get (k := 5) rfl) (hp.get (k := 7) rfl)

/-- A channel block with another last number is the same block only if the number is. -/
theorem reply_number_iff (e : EventConf) (origin : String) (n : Int) :
    (e.reply origin).map (fun data => ⟨[data.lvalue.getD 0 0,n],data.svalue⟩) = e.reply origin ↔
      (e.isFound = true → n = atoi e.last) := by
  cases e with
  | notFound name => exact iff_of_true rfl (fun h => absurd h Bool.false_ne_true)
  | found name ior info hf hi =>
    obtain ⟨a,b,x,m,rfl⟩ : ∃ a b x m, info = [a,b,x,m] := by
      match info,hi with
      | [a,b,x,m],_ => exact ⟨a,b,x,m,rfl⟩
    have hlast : (EventConf.found name ior [a,b,x,m] hf hi).last = m := rfl
    rw [hlast]
    simp [EventConf.reply,EventConf.isFound,Except.map]

theorem notifd_imported (h : c.Imports conf start) :
    c.importNotifdEvent = some (conf.notifdEvent.reply "DbServerCache::import_notifd_event") := by
  have hlast := last_placed h.notifdPlace
  have hread := event_imported h.list "DbServerCache::import_notifd_event" h.notifdPlace hlast
  rw [(reply_number_iff _ _ _).mpr (fun _ => rfl)] at hread
  unfold DbServerCache.importNotifdEvent
  rw [h.notifd,← hread,show start + 8 + conf.notifdEvent.strings.length - 1 =
    start + 7 + conf.notifdEvent.strings.length by omega]

/-- The reply for the event channel of the server has the last number of the other channel. -/
theorem event_imported_number (h : c.Imports conf start) :
    c.importAdmEvent = some ((conf.admEvent.reply "DbServerCache::import_adm_event").map
      (fun data => ⟨[data.lvalue.getD 0 0,atoi conf.notifdEvent.last],data.svalue⟩)) := by
  have hlast := last_placed h.notifdPlace
  rw [show start + 8 + conf.notifdEvent.strings.length - 1 =
    start + 7 + conf.notifdEvent.strings.length by omega] at hlast
  have hread := event_imported h.list "DbServerCache::import_adm_event" h.eventPlace hlast
  unfold DbServerCache.importAdmEvent
  rw [h.event,h.notifd,← hread]
  simp only
  rw [show start + 8 + conf.notifdEvent.strings.length + conf.admEvent.strings.length - 1 =
    start + 7 + conf.notifdEvent.strings.length + conf.admEvent.strings.length by omega]

end Imports

section Exact

theorem releaseNumber_as {release : Option (Nat × Nat)} {name : String} (h : releasedAs release name) :
    ∃ rel, ((releaseStrings release ++ [name,"Not Found"])[0]?).bind releaseNumber = some rel ∧
      (if rel = 0 then 0 else 1) = (releaseStrings release).length ∧
      (109 ≤ rel ↔ ∃ major minor, release = some (major,minor) ∧ 109 ≤ major * 100 + minor) := by
  cases release with
  | none => exact ⟨0,releaseNumber_noRelease h,rfl,by simp⟩
  | some r =>
    obtain ⟨major,minor⟩ := r
    obtain ⟨hpos,hlt⟩ := h
    refine ⟨((major * 100 + minor : Nat) : Int),releaseNumber_releaseText major minor hlt,?_,?_⟩
    · rw [if_neg (by omega)]
      rfl
    · simp only [Option.some.injEq,Prod.mk.injEq]
      constructor
      · intro h
        exact ⟨major,minor,⟨rfl,rfl⟩,by omega⟩
      · rintro ⟨major',minor',⟨rfl,rfl⟩,h⟩
        omega

/-- Without an admin device the import fails as it should exactly for no release and for those from
1.9 on. -/
theorem undefined_imported {release : Option (Nat × Nat)} {name : String}
    (hr : releasedAs release name) :
    ∃ c, dbServerCache (Sent.undefined release name).strings = some c ∧
      (ReadsOwnBlocks c (.undefined release name) ↔ ImportsRight (.undefined release name)) := by
  obtain ⟨rel,hrel,hstart,hnine⟩ := releaseNumber_as hr
  have htwo : (releaseStrings release ++ [name,"Not Found"]).length = 2 ∨
      (releaseStrings release ++ [name,"Not Found"]).length = 3 := by
    cases release with
    | none => exact .inl rfl
    | some r => exact .inr rfl
  unfold dbServerCache Sent.strings
  rw [hrel]
  simp only [bind,Option.bind_some,pure]
  rw [hstart,if_pos htwo]
  refine ⟨_,rfl,?_⟩
  unfold ReadsOwnBlocks ImportsRight DbServerCache.importAdmDev
  simp only
  cases release with
  | none =>
    have hold : ¬ 109 ≤ rel := fun h => by
      obtain ⟨_,_,hn,-⟩ := hnine.mp h
      cases hn
    rw [if_neg hold]
    exact iff_of_true rfl (fun _ _ h => by cases h)
  | some r =>
    obtain ⟨major,minor⟩ := r
    by_cases hnew : 109 ≤ rel
    · rw [if_pos hnew]
      refine iff_of_true rfl ?_
      rintro _ _ ⟨⟩
      obtain ⟨_,_,⟨⟩,h⟩ := hnine.mp hnew
      exact h
    · rw [if_neg hnew]
      refine iff_of_false (fun h => by cases h) (fun h => ?_)
      exact hnew (hnine.mpr ⟨major,minor,rfl,h major minor rfl⟩)

theorem defined_imported {conf : Config} (hr : conf.Released) (hlen : conf.strings.length < 2 ^ 31) :
    ∃ c, dbServerCache conf.strings = some c ∧
      (ReadsOwnBlocks c (.defined conf) ↔ ImportsRight (.defined conf)) := by
  obtain ⟨c,hc,-⟩ := dbServerCache_holds hlen hr
  obtain ⟨start,h⟩ := imports_of_constructor hr hc
  refine ⟨c,hc,?_⟩
  unfold ReadsOwnBlocks ImportsRight
  simp only
  rw [adm_imported h,notifd_imported h,event_imported_number h]
  have hnum := reply_number_iff conf.admEvent "DbServerCache::import_adm_event" (atoi conf.notifdEvent.last)
  exact ⟨fun hall => hnum.mp (Option.some.inj hall.2.2),fun h => ⟨rfl,rfl,congrArg some (hnum.mpr h)⟩⟩

/-- The imports from the cache say what their own blocks say exactly when an undefined admin device
does not come with a release below 1.9, and the two event channels end with the same number. -/
theorem imports_read_own_blocks_iff (sent : Sent) (hr : sent.Released) (hlen : sent.strings.length < 2 ^ 31) :
    ∃ c, dbServerCache sent.strings = some c ∧ (ReadsOwnBlocks c sent ↔ ImportsRight sent) := by
  cases sent with
  | undefined release name => exact undefined_imported hr
  | defined conf => exact defined_imported hr hlen

theorem motor_imports_own_blocks : ∃ c,
    dbServerCache (Sent.defined (motorConfig "dserver/motor/v1.2")).strings = some c ∧
      (ReadsOwnBlocks c (.defined (motorConfig "dserver/motor/v1.2")) ↔
        ImportsRight (.defined (motorConfig "dserver/motor/v1.2"))) :=
  imports_read_own_blocks_iff _ (Or.inl (by decide)) (motorConfig_fits "dserver/motor/v1.2").strings

/-- With release 1.8 an admin device that is not there is looked for behind the end of the array. -/
theorem undefined_read_outside : (Sent.undefined (some (1,8)) "dserver/motor/1").Released ∧
    ∃ c, dbServerCache (Sent.undefined (some (1,8)) "dserver/motor/1").strings = some c ∧
      ¬ ReadsOwnBlocks c (.undefined (some (1,8)) "dserver/motor/1") := by
  refine ⟨⟨.inl (by decide),by decide⟩,?_⟩
  have hnone : (dbServerCache (Sent.undefined (some (1,8)) "dserver/motor/1").strings).map
      DbServerCache.importAdmDev = some none := by decide +kernel
  obtain ⟨c,hc,hread⟩ := Option.map_eq_some_iff.mp hnone
  refine ⟨c,hc,fun h => ?_⟩
  rw [ReadsOwnBlocks,hread] at h
  cases h

end Exact

end CppTango.Db
