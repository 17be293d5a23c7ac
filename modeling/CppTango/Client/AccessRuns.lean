import CppTango.Client.Access

namespace CppTango.Client.Access

open CppTango.Lib CppTango.Device

section Reasons
variable (conf : DbConf) (O : Prop) (H : List World)

/-- The service has given the right to write to the user and the addresses of the process. -/
def Told (devname : String) : Prop :=
  ∃ w ∈ H, ∃ wu ∈ H, ∃ user, wu.user = some user ∧ ∃ wa ∈ H, ∃ adrs, wa.addresses = some adrs ∧
    (w.getAccessForMultiIp (lower user) devname (hostAddresses adrs) = .ok "write" ∨
      w.getAccess (lower user) ((hostAddresses adrs).headD "") devname = .ok "write")

/-- The service has named a command among the allowed ones of a class. -/
def Listed (classname cmd : String) : Prop :=
  ∃ w ∈ H, ∃ allowed, w.getAllowedCommands classname = .ok allowed ∧ isIn allowed cmd = true

/-- The database has given the class of a device, when asked for it or with the import of the device. -/
def HasClass (devname classname : String) : Prop :=
  ∃ w ∈ H, w.getClassForDevice devname = .ok classname ∨
    ∃ exported, w.importDevice devname = .ok (exported,some classname)

/-- A command is allowed for the class a device has in the database. -/
def Allowed (devname cmd : String) : Prop :=
  ∃ classname, (devname = conf.dbDeviceName ∧ classname = "Database" ∨ HasClass H devname classname) ∧
    Listed H classname cmd

/-- There is no access control: the process has switched it off, there is no service, or the one that the
environment names cannot be reached. -/
def OpenIn (w : World) : Prop :=
  forcedIn w = true ∨ chooseService w = none ∨
    ∃ name e, w.accessDevname = some name ∧ realCtor w (accessDeviceName conf name) = .error e

/-- Nothing has been found out about the access control. -/
def Unknown (db : Db) : Prop := db.accessProxy = none ∧ db.accessChecked = false

/-- What a call may find counts as long as nothing is known. -/
def Asked (w : World) (db : Db) : Prop := Unknown db → OpenIn conf w → O

def MayWrite (devname : String) : Prop := O ∨ Told H devname

/-- What is sent has a reason. -/
def Justified : Sent → Prop
  | .write devname => MayWrite O H devname
  | .command devname cmd => MayWrite O H devname ∨ Allowed conf H devname cmd

/-- What the proxy of the access control device has kept was found in the run. -/
structure Faithful (p : AccessProxy) : Prop where
  forced : p.forced = true → O
  user : p.user = "" ∨ ∃ w ∈ H, ∃ u, w.user = some u ∧ p.user = lower u
  hosts : p.hostIps = [] ∨ ∃ w ∈ H, ∃ adrs, w.addresses = some adrs ∧ p.hostIps = hostAddresses adrs
  table : ∀ classname allowed, p.allowedCmdTable.lookup classname = some allowed →
    allowed = [] ∨ ∃ w ∈ H, w.getAllowedCommands classname = .ok allowed

/-- What the database object has kept was found in the run; its right counts once it has been checked. -/
structure Sound (db : Db) : Prop where
  proxy : ∀ p, db.accessProxy = some p → Faithful O H p
  classes : ∀ devname classname, db.devClassCache.lookup devname = some classname → HasClass H devname classname
  checked : db.accessChecked = true → db.access = .write → MayWrite O H conf.dbDeviceName
  closed : db.accessChecked = true → db.accessProxy = none → db.accessServiceDefined = false → O

/-- The right on the database device itself. -/
def Right (db : Db) : Prop := db.access = .write → MayWrite O H conf.dbDeviceName

end Reasons

section Proxy
variable {conf : DbConf} {O : Prop} {H : List World} {w : World} {p : AccessProxy}

theorem realCtor_faithful (ho : forcedIn w = true → O) {name : String} (h : realCtor w name = .ok p) :
    Faithful O H p := by
  have hempty : ∀ (forced : Bool), (forced = true → forcedIn w = true) → Faithful O H ⟨name,forced,"",[],∅⟩ := by
    intro forced hf
    refine ⟨fun he => ho (hf he),.inl rfl,.inl rfl,fun classname allowed hl => ?_⟩
    rw [AList.lookup_empty] at hl
    cases hl
  unfold realCtor at h
  split at h
  next => cases h
  next =>
    split at h
    next hf =>
      cases h
      exact hempty true (fun _ => hf)
    next =>
      split at h
      next => cases h
      next =>
        cases h
        exact hempty false (fun he => by cases he)

/-- Once the user and the addresses are known they are those of the process. -/
theorem identified_faithful (hw : w ∈ H) (hp : Faithful O H p) : Faithful O H (identified w p).1 ∧
    ((identified w p).2 = true → (∃ wu ∈ H, ∃ u, wu.user = some u ∧ (identified w p).1.user = lower u) ∧
      ∃ wa ∈ H, ∃ adrs, wa.addresses = some adrs ∧ (identified w p).1.hostIps = hostAddresses adrs) := by
  have huser : ∀ user, (if p.user = "" then w.user.map lower else some p.user) = some user →
      ∃ wu ∈ H, ∃ u, wu.user = some u ∧ user = lower u := by
    intro user h
    split at h
    next =>
      obtain ⟨u,hu,rfl⟩ := Option.map_eq_some_iff.mp h
      exact ⟨w,hw,u,hu,rfl⟩
    next hne =>
      cases h
      exact hp.user.resolve_left hne
  have hhosts : ∀ ips, (if p.hostIps = [] then w.addresses.map hostAddresses else some p.hostIps) = some ips →
      ∃ wa ∈ H, ∃ adrs, wa.addresses = some adrs ∧ ips = hostAddresses adrs := by
    intro ips h
    split at h
    next =>
      obtain ⟨a,ha,rfl⟩ := Option.map_eq_some_iff.mp h
      exact ⟨w,hw,a,ha,rfl⟩
    next hne =>
      cases h
      exact hp.hosts.resolve_left hne
  unfold identified
  split
  next => exact ⟨hp,fun he => by cases he⟩
  next user hu =>
    split
    next => exact ⟨⟨hp.forced,.inr (huser user hu),hp.hosts,hp.table⟩,fun he => by cases he⟩
    next ips hi =>
      exact ⟨⟨hp.forced,.inr (huser user hu),.inr (hhosts ips hi),hp.table⟩,fun _ => ⟨huser user hu,hhosts ips hi⟩⟩

theorem askService_write {devname : String} (h : askService w p devname = .ok .write) :
    w.getAccessForMultiIp p.user devname p.hostIps = .ok "write" ∨
      w.getAccess p.user (p.hostIps.headD "") devname = .ok "write" := by
  have hright : ∀ right : String, (Except.ok (ofRight right) : Except DevErrorList AccessControlType) = .ok .write →
      right = "write" := by
    intro right hr
    unfold ofRight at hr
    by_contra hne
    rw [if_neg hne] at hr
    cases hr
  unfold askService at h
  split at h
  next right hm =>
    rw [hright right h] at hm
    exact .inl hm
  next =>
    split at h
    next => cases h
    next =>
      split at h
      next right hm =>
        rw [hright right h] at hm
        exact .inr hm
      next => split at h <;> cases h

/-- The right to write comes from the service or from a process that has switched it off. -/
theorem checkAccessControl_faithful (hw : w ∈ H) (hp : Faithful O H p) (devname : String) :
    Faithful O H (p.checkAccessControl w devname).1 ∧
      ((p.checkAccessControl w devname).2 = .ok .write → MayWrite O H devname) := by
  unfold AccessProxy.checkAccessControl
  split
  next hf =>
    exact ⟨hp,fun _ => .inl (hp.forced hf)⟩
  next =>
    obtain ⟨hp',hknown⟩ := identified_faithful hw hp
    split
    next p' hi =>
      rw [hi] at hp'
      exact ⟨hp',fun he => by cases he⟩
    next p' hi =>
      rw [hi] at hp' hknown
      refine ⟨hp',fun he => .inr ?_⟩
      obtain ⟨⟨wu,hwu,u,hu,heu⟩,wa,hwa,adrs,ha,hea⟩ := hknown rfl
      have hask := askService_write he
      dsimp only at heu hea
      rw [heu,hea] at hask
      exact ⟨w,hw,wu,hwu,u,hu,wa,hwa,adrs,ha,hask⟩

/-- The table keeps what the service has answered. -/
theorem isCommandAllowed_faithful (hw : w ∈ H) (hp : Faithful O H p) (classname cmd : String) :
    Faithful O H (p.isCommandAllowed w classname cmd).1 ∧
      ((p.isCommandAllowed w classname cmd).2 = true → Listed H classname cmd) := by
  have hanswer : allowedCommands w classname = [] ∨
      w.getAllowedCommands classname = .ok (allowedCommands w classname) := by
    unfold allowedCommands
    cases w.getAllowedCommands classname with
    | error e => exact .inl rfl
    | ok allowed => exact .inr rfl
  unfold AccessProxy.isCommandAllowed
  cases hl : p.allowedCmdTable.lookup classname with
  | some allowed =>
    refine ⟨hp,fun hin => ?_⟩
    rcases hp.table classname allowed hl with rfl | ⟨w',hw',hc⟩
    · cases hin
    · exact ⟨w',hw',allowed,hc,hin⟩
  | none =>
    dsimp only
    refine ⟨⟨hp.forced,hp.user,hp.hosts,fun c allowed hc => ?_⟩,fun hin => ?_⟩
    · rcases lookup_insert_iff.mp hc with ⟨rfl,rfl⟩ | ⟨-,hc⟩
      · exact hanswer.imp id (fun h => ⟨w,hw,h⟩)
      · exact hp.table c allowed hc
    · rcases hanswer with he | he
      · rw [he] at hin
        cases hin
      · exact ⟨w,hw,_,he,hin⟩

end Proxy

section Database
variable {conf : DbConf} {O : Prop} {H : List World} {w : World} {db : Db} (devname cmd : String)

/-- A check of a right leaves the flag of the database device alone, and gives the right to write for a reason
only. -/
structure Checked (conf : DbConf) (O : Prop) (H : List World) (devname : String) (before after : Db)
    (acc : AccessControlType) : Prop where
  sound : Sound conf O H after
  right : Right conf O H before → Right conf O H after
  flag : after.accessChecked = before.accessChecked
  reason : acc = .write → MayWrite O H devname
  known : Unknown after → Unknown before
  closed : after.accessProxy = none → after.accessServiceDefined = false → O
  late : before.accessChecked = true → before.accessProxy = none → after.accessProxy = none

theorem asked_checked (hc : db.accessChecked = true) : Asked conf O w db := fun hu _ => by
  rw [hu.2] at hc
  cases hc

theorem asked_proxy {p : AccessProxy} (hp : db.accessProxy = some p) : Asked conf O w db := fun hu _ => by
  rw [hu.1] at hp
  cases hp

theorem sound_withProxy {p : AccessProxy} {e : DevErrorList} (hs : Sound conf O H db) (hp : Faithful O H p) :
    Sound conf O H { db with accessProxy := some p,accessExceptErrors := e } := by
  refine ⟨fun q hq => ?_,hs.classes,hs.checked,fun _ he => by cases he⟩
  cases hq
  exact hp

/-- What is asked of the proxy, from any state with the flag and the right of the one before. -/
theorem askProxy_checked {before : Db} {p : AccessProxy} (hw : w ∈ H) (hs : Sound conf O H db) (hp : Faithful O H p)
    (hflag : db.accessChecked = before.accessChecked) (hacc : db.access = before.access)
    (hlate : before.accessChecked = true → before.accessProxy ≠ none) :
    Checked conf O H devname before (askProxy w devname db p).1 (askProxy w devname db p).2 := by
  obtain ⟨hp',hwrite⟩ := checkAccessControl_faithful hw hp devname
  unfold askProxy
  split
  next p' access hc =>
    rw [hc] at hp' hwrite
    refine ⟨sound_withProxy hs hp',fun hr he => hr (hacc ▸ he),hflag,fun he => hwrite (congrArg Except.ok he),
      fun hu => (by cases hu.1),fun he => (by cases he),fun hb hn => absurd hn (hlate hb)⟩
  next p' e hc =>
    rw [hc] at hp'
    exact ⟨sound_withProxy hs hp',fun hr he => hr (hacc ▸ he),hflag,fun he => (by cases he),
      fun hu => (by cases hu.1),fun he => (by cases he),fun hb hn => absurd hn (hlate hb)⟩

theorem chooseService_env {name : String} (h : chooseService w = some (name,false)) : w.accessDevname = some name := by
  unfold chooseService at h
  split at h
  next name' hn =>
    cases h
    exact hn
  next =>
    obtain ⟨_,-,he⟩ := Option.map_eq_some_iff.mp h
    cases he

theorem checkAccessControl_checked (hw : w ∈ H) (ho : Asked conf O w db) (hs : Sound conf O H db) :
    Checked conf O H devname db (checkAccessControl conf w devname db).1 (checkAccessControl conf w devname db).2 := by
  unfold checkAccessControl
  split
  next hdb =>
    obtain ⟨hc,hd⟩ : db.accessChecked = true ∧ devname = conf.dbDeviceName := by simpa using hdb
    subst hd
    exact ⟨hs,id,rfl,hs.checked hc,id,hs.closed hc,fun _ hn => hn⟩
  next =>
    split
    next p hp =>
      have hsome : db.accessProxy ≠ none := by
        rw [hp]
        exact Option.some_ne_none p
      exact askProxy_checked devname hw hs (hs.proxy p hp) rfl rfl (fun _ => hsome)
    next hnone =>
      split
      next hc =>
        refine ⟨⟨hs.proxy,hs.classes,hs.checked,hs.closed⟩,id,rfl,fun he => ?_,id,hs.closed hc,fun _ hn => hn⟩
        cases hd : db.accessServiceDefined with
        | true =>
          rw [hd] at he
          cases he
        | false => exact .inl (hs.closed hc hnone hd)
      next hc =>
        have hclosed : ∀ {P : Prop}, db.accessChecked = true → P := fun he => absurd he hc
        have hunknown : Unknown db := ⟨hnone,Bool.eq_false_of_not_eq_true hc⟩
        split
        next hno =>
          have hopen : O := ho hunknown (.inr (.inl hno))
          exact ⟨⟨hs.proxy,hs.classes,hclosed,hclosed⟩,fun _ _ => .inl hopen,rfl,fun _ => .inl hopen,
            fun _ => hunknown,fun _ _ => hopen,hclosed⟩
        next name inDb hserv =>
          split
          next e hctor =>
            refine ⟨⟨hs.proxy,hs.classes,hclosed,hclosed⟩,id,rfl,fun he => (by cases he),
              fun _ => hunknown,fun _ hd => ?_,hclosed⟩
            cases inDb with
            | true => simp at hd
            | false => exact ho hunknown (.inr (.inr ⟨name,e,chooseService_env hserv,hctor⟩))
          next p hctor =>
            have hp : Faithful O H p := realCtor_faithful (fun hf => ho hunknown (.inl hf)) hctor
            exact askProxy_checked devname hw ⟨hs.proxy,hs.classes,hs.checked,hclosed⟩ hp rfl rfl hclosed

/-- After a check the right on the database device counts. -/
theorem checkAccess_sound (hw : w ∈ H) (ho : Asked conf O w db) (hs : Sound conf O H db) :
    Sound conf O H (checkAccess conf w db) ∧ (checkAccess conf w db).accessChecked = true := by
  unfold checkAccess
  split
  next hc => exact ⟨hs,hc⟩
  next =>
    have hk := checkAccessControl_checked conf.dbDeviceName hw ho hs
    exact ⟨⟨hk.sound.proxy,hk.sound.classes,fun _ => hk.reason,fun _ => hk.closed⟩,rfl⟩

theorem Sound.right (hs : Sound conf O H db) (hc : db.accessChecked = true) : Right conf O H db := hs.checked hc

theorem checkAccess_right (hw : w ∈ H) (ho : Asked conf O w db) (hs : Sound conf O H db) :
    Right conf O H (checkAccess conf w db) :=
  (checkAccess_sound hw ho hs).1.right (checkAccess_sound hw ho hs).2

/-- The right of a device that is not the database is put into the object only before the first check. -/
theorem firstProxy_sound (hw : w ∈ H) (ho : Asked conf O w db) (hs : Sound conf O H db) :
    Sound conf O H (firstProxy conf w devname db).1 ∧
      (∀ allowed, (firstProxy conf w devname db).2 = .inl allowed → (allowed = true → MayWrite O H devname) ∧
        (Right conf O H db → Right conf O H (firstProxy conf w devname db).1)) ∧
      (∀ p, (firstProxy conf w devname db).2 = .inr p → Faithful O H p ∧
        (firstProxy conf w devname db).1.accessProxy = some p ∧
        (devname = conf.dbDeviceName → Right conf O H db → Right conf O H (firstProxy conf w devname db).1)) := by
  have hk := checkAccessControl_checked devname hw ho hs
  unfold firstProxy
  split
  next p hp =>
    refine ⟨hs,fun _ he => (by cases he),fun q hq => ?_⟩
    cases hq
    exact ⟨hs.proxy p hp,hp,fun _ hr => hr⟩
  next hnone =>
    generalize checkAccessControl conf w devname db = r at hk
    obtain ⟨db1,acc⟩ := r
    dsimp only at hk ⊢
    split
    next hn =>
      refine ⟨hk.sound,fun allowed he => ?_,fun _ he => by cases he⟩
      cases he
      refine ⟨fun hne => hk.reason ?_,hk.right⟩
      cases acc with
      | read => simp at hne
      | write => rfl
    next p hp =>
      have hunchecked : db1.accessChecked ≠ true := by
        intro hc
        rw [hk.late (hk.flag ▸ hc) hnone] at hp
        cases hp
      refine ⟨⟨hk.sound.proxy,hk.sound.classes,fun hc => absurd hc hunchecked,fun hc => absurd hc hunchecked⟩,
        fun _ he => (by cases he),fun q hq => ?_⟩
      cases hq
      refine ⟨hk.sound.proxy p hp,hp,fun hd _ => ?_⟩
      subst hd
      exact hk.reason

theorem dbCommandAllowed_sound (hw : w ∈ H) (ho : Asked conf O w db) (hs : Sound conf O H db)
    (hr : Right conf O H db) :
    Sound conf O H (dbCommandAllowed conf w cmd db).1 ∧ Right conf O H (dbCommandAllowed conf w cmd db).1 ∧
      ((dbCommandAllowed conf w cmd db).2 = true → Justified conf O H (.command conf.dbDeviceName cmd)) := by
  obtain ⟨hs',hleft,hright⟩ := firstProxy_sound conf.dbDeviceName hw ho hs
  unfold dbCommandAllowed
  generalize firstProxy conf w conf.dbDeviceName db = r at hs' hleft hright
  obtain ⟨db1,allowed | p⟩ := r
  · obtain ⟨hreason,hr'⟩ := hleft allowed rfl
    exact ⟨hs',hr' hr,fun he => .inl (hreason he)⟩
  · obtain ⟨hp,-,hr'⟩ := hright p rfl
    have hr1 : Right conf O H db1 := hr' rfl hr
    dsimp only at hs' ⊢
    split
    next hread =>
      obtain ⟨hp',hlisted⟩ := isCommandAllowed_faithful hw hp "Database" cmd
      exact ⟨sound_withProxy hs' hp',hr1,fun he => .inr ⟨"Database",.inl ⟨rfl,rfl⟩,hlisted he⟩⟩
    next hwrite =>
      refine ⟨hs',hr1,fun _ => .inl (hr1 ?_)⟩
      cases ha : db1.access with
      | read => exact absurd ha hwrite
      | write => rfl

theorem dbCommandInout_sound (hw : w ∈ H) (ho : Asked conf O w db) (hs : Sound conf O H db)
    (hr : Right conf O H db) :
    Sound conf O H (dbCommandInout conf w cmd db).1 ∧ Right conf O H (dbCommandInout conf w cmd db).1 ∧
      ((dbCommandInout conf w cmd db).2 = none → Justified conf O H (.command conf.dbDeviceName cmd)) := by
  obtain ⟨hs',hr',hallowed⟩ := dbCommandAllowed_sound cmd hw ho hs hr
  unfold dbCommandInout
  split
  next hread =>
    generalize dbCommandAllowed conf w cmd db = r at hs' hr' hallowed
    obtain ⟨db1,_ | _⟩ := r
    · exact ⟨hs',hr',fun he => by cases he⟩
    · exact ⟨hs',hr',fun _ => hallowed rfl⟩
  next hwrite =>
    refine ⟨hs,hr,fun _ => .inl (hr ?_)⟩
    cases ha : db.access with
    | read => exact absurd ha hwrite
    | write => rfl

theorem getClassForDevice_sound (hw : w ∈ H) (ho : Asked conf O w db) (hs : Sound conf O H db) :
    Sound conf O H (getClassForDevice conf w devname db).1 ∧ Right conf O H (getClassForDevice conf w devname db).1 ∧
      ∀ classname, (getClassForDevice conf w devname db).2 = .ok classname → HasClass H devname classname := by
  obtain ⟨hs1,hc1⟩ := checkAccess_sound hw ho hs
  have hr1 := checkAccess_right hw ho hs
  obtain ⟨hs2,hr2,-⟩ := dbCommandInout_sound "DbGetClassforDevice" hw (asked_checked hc1) hs1 hr1
  unfold getClassForDevice
  split
  next classname hl =>
    refine ⟨hs1,hr1,fun c hc => ?_⟩
    cases hc
    exact hs1.classes devname classname hl
  next =>
    generalize dbCommandInout conf w "DbGetClassforDevice" (checkAccess conf w db) = r at hs2 hr2
    obtain ⟨db2,_ | e⟩ := r
    · dsimp only at hs2 hr2 ⊢
      cases hcl : w.getClassForDevice devname with
      | error e => exact ⟨hs2,hr2,fun _ hc => by cases hc⟩
      | ok classname =>
        have hclass : HasClass H devname classname := ⟨w,hw,.inl hcl⟩
        refine ⟨⟨hs2.proxy,fun d c hc => ?_,hs2.checked,hs2.closed⟩,hr2,fun c hc => ?_⟩
        · rcases lookup_insert_iff.mp hc with ⟨rfl,rfl⟩ | ⟨-,hc⟩
          · exact hclass
          · exact hs2.classes d c hc
        · cases hc
          exact hclass
    · exact ⟨hs2,hr2,fun _ hc => by cases hc⟩

/-- A command that a client may only read with is allowed for a reason. -/
theorem isCommandAllowed_sound (hw : w ∈ H) (ho : Asked conf O w db) (hs : Sound conf O H db)
    (hr : Right conf O H db) :
    Sound conf O H (isCommandAllowed conf w devname cmd db).1 ∧
      Right conf O H (isCommandAllowed conf w devname cmd db).1 ∧
      ((isCommandAllowed conf w devname cmd db).2 = .ok true → Justified conf O H (.command devname cmd)) := by
  unfold isCommandAllowed
  split
  next hd =>
    subst hd
    obtain ⟨hs1,hr1,hallowed⟩ := dbCommandAllowed_sound cmd hw ho hs hr
    exact ⟨hs1,hr1,fun he => hallowed (Except.ok.inj he)⟩
  next =>
    obtain ⟨hs1,hleft,hright⟩ := firstProxy_sound devname hw ho hs
    generalize firstProxy conf w devname db = r at hs1 hleft hright
    obtain ⟨db1,allowed | p⟩ := r
    · obtain ⟨hreason,hr1⟩ := hleft allowed rfl
      exact ⟨hs1,hr1 hr,fun he => .inl (hreason (Except.ok.inj he))⟩
    · obtain ⟨hs2,hr2,hclass⟩ := getClassForDevice_sound devname hw (asked_proxy (hright p rfl).2.1) hs1
      dsimp only at hs2 hr2 hclass ⊢
      generalize getClassForDevice conf w devname db1 = r at hs2 hr2 hclass
      obtain ⟨db2,e | classname⟩ := r
      · exact ⟨hs2,hr2,fun he => by cases he⟩
      · dsimp only at hs2 hr2 hclass ⊢
        cases hp : db2.accessProxy with
        | none => exact ⟨hs2,hr2,fun he => by cases he⟩
        | some p =>
          obtain ⟨hp',hlisted⟩ := isCommandAllowed_faithful hw (hs2.proxy p hp) classname cmd
          exact ⟨sound_withProxy hs2 hp',hr2,
            fun he => .inr ⟨classname,.inr (hclass classname rfl),hlisted (Except.ok.inj he)⟩⟩

end Database

section Calls
variable {conf : DbConf} {O : Prop} {H : List World} {w : World} {db : Db} {p : DevProxy} {s : AccessState}

/-- The database object and a proxy: a right to write has a reason. -/
structure Safe (conf : DbConf) (O : Prop) (H : List World) (db : Db) (p : DevProxy) : Prop where
  sound : Sound conf O H db
  right : Right conf O H db
  access : p.access = .write → MayWrite O H p.name

/-- In the middle of a call, which may still find out about the access control. -/
structure Held (conf : DbConf) (O : Prop) (H : List World) (w : World) (db : Db) (p : DevProxy) : Prop extends
    Safe conf O H db p where
  asked : Asked conf O w db

theorem imported_sound {exported : Bool} {classname : Option String} {devname : String} (hw : w ∈ H)
    (h : w.importDevice devname = .ok (exported,classname)) (hs : Sound conf O H db) :
    Sound conf O H (db.imported devname classname) := by
  unfold Db.imported
  split
  next c hl =>
    refine ⟨hs.proxy,fun d c' hc => ?_,hs.checked,hs.closed⟩
    rcases lookup_insert_iff.mp hc with ⟨rfl,rfl⟩ | ⟨-,hc⟩
    · exact ⟨w,hw,.inr ⟨exported,h⟩⟩
    · exact hs.classes d c' hc
  next => exact hs

theorem imported_access (devname : String) (classname : Option String) :
    (db.imported devname classname).access = db.access := by
  unfold Db.imported
  split <;> rfl

theorem imported_unknown {devname : String} {classname : Option String} (h : Unknown (db.imported devname classname)) :
    Unknown db := by
  unfold Db.imported at h
  split at h <;> exact h

theorem getCorbaName_held (hw : w ∈ H) (h : Held conf O H w db p) (needCheckAcc : Bool) :
    Held conf O H w (getCorbaName conf w needCheckAcc db p).1 (getCorbaName conf w needCheckAcc db p).2.1 := by
  have hcache : ∀ exported classname, w.importDevice p.name = .ok (exported,classname) →
      Held conf O H w (db.imported p.name classname) p := by
    intro exported classname hi
    refine ⟨⟨imported_sound hw hi h.sound,fun he => h.right ?_,h.access⟩,fun hu => h.asked (imported_unknown hu)⟩
    rwa [imported_access] at he
  unfold getCorbaName
  split
  next => exact h
  next classname hi =>
    have hi' := hcache _ _ hi
    exact ⟨⟨hi'.sound,hi'.right,h.access⟩,hi'.asked⟩
  next classname hi =>
    have hi' := hcache _ _ hi
    split
    next =>
      have hk := checkAccessControl_checked p.name hw hi'.asked hi'.sound
      exact ⟨⟨hk.sound,hk.right hi'.right,hk.reason⟩,fun hu => hi'.asked (hk.known hu)⟩
    next => exact ⟨⟨hi'.sound,hi'.right,h.access⟩,hi'.asked⟩

theorem reconnect_held (hw : w ∈ H) (h : Held conf O H w db p) :
    Held conf O H w (reconnect conf w db p).1 (reconnect conf w db p).2.1 := by
  have hk := getCorbaName_held hw h p.checkAcc
  unfold reconnect
  generalize getCorbaName conf w p.checkAcc db p = r at hk
  obtain ⟨db1,p1,_ | e⟩ := r
  · dsimp only at hk ⊢
    split
    next => exact ⟨⟨hk.sound,hk.right,hk.access⟩,hk.asked⟩
    next =>
      have hcleared : Sound conf O H { db1 with accessExceptErrors := [] } :=
        ⟨hk.sound.proxy,hk.sound.classes,hk.sound.checked,hk.sound.closed⟩
      exact ⟨⟨hcleared,hk.right,hk.access⟩,hk.asked⟩
  · exact hk

theorem checkAndReconnect_held (hw : w ∈ H) (h : Held conf O H w db p) :
    Held conf O H w (checkAndReconnect conf w db p).1 (checkAndReconnect conf w db p).2.1 := by
  have hk := reconnect_held hw h
  unfold checkAndReconnect
  split
  next => exact h
  next =>
    split
    next => exact h
    next => exact hk

/-- A new proxy can only read until the service has been asked. -/
theorem newProxy_held (hw : w ∈ H) (ho : Asked conf O w db) (hs : Sound conf O H db) (hr : Right conf O H db)
    (name : String) (needCheckAcc : Bool) :
    Sound conf O H (newProxy conf w name needCheckAcc db).1 ∧ Right conf O H (newProxy conf w name needCheckAcc db).1 ∧
      ∀ p, (newProxy conf w name needCheckAcc db).2 = some p → p.access = .write → MayWrite O H p.name := by
  have hk := getCorbaName_held (p := ⟨name,.read,true,false⟩) hw ⟨⟨hs,hr,fun he => by cases he⟩,ho⟩ needCheckAcc
  unfold newProxy
  generalize getCorbaName conf w needCheckAcc db ⟨name,.read,true,false⟩ = r at hk
  obtain ⟨db1,p1,e⟩ := r
  have hgiven : ∀ {db2 : Db} {p2 p : DevProxy}, Held conf O H w db2 p2 → some p2 = some p → p.access = .write →
      MayWrite O H p.name := by
    intro db2 p2 p h2 hp
    cases hp
    exact h2.access
  have hnone : ∀ {p : DevProxy}, (none : Option DevProxy) = some p → p.access = .write → MayWrite O H p.name :=
    fun hp => by cases hp
  dsimp only
  split
  next => exact ⟨hk.sound,hk.right,fun p => hnone⟩
  next =>
    split
    next => exact ⟨hk.sound,hk.right,fun p => hgiven hk⟩
    next =>
      have hk2 := reconnect_held hw hk
      dsimp only at hk2
      generalize reconnect conf w db1 p1 = r at hk2
      obtain ⟨db2,p2,_ | e2⟩ := r
      · exact ⟨hk2.sound,hk2.right,fun p => hgiven hk2⟩
      · refine ⟨hk2.sound,hk2.right,fun p => ?_⟩
        dsimp only
        split
        next => exact hgiven hk2
        next => exact hnone

/-- What a client has and has sent has a reason. -/
structure Obeys (conf : DbConf) (O : Prop) (H : List World) (s : AccessState) : Prop where
  sound : Sound conf O H s.db
  right : Right conf O H s.db
  proxies : ∀ id p, s.proxies id = some p → p.access = .write → MayWrite O H p.name
  sent : ∀ x ∈ s.sent, Justified conf O H x

theorem obeys_update {s' : AccessState} {id : Nat} {q : Option DevProxy} (h : Obeys conf O H s)
    (hs : Sound conf O H s'.db) (hr : Right conf O H s'.db) (hq : ∀ p, q = some p → p.access = .write → MayWrite O H p.name)
    (hproxies : s'.proxies = Function.update s.proxies id q) (hsent : s'.sent = s.sent) : Obeys conf O H s' := by
  refine ⟨hs,hr,fun i p hp => ?_,hsent ▸ h.sent⟩
  rw [hproxies] at hp
  by_cases hi : i = id
  · subst hi
    rw [Function.update_self] at hp
    exact hq p hp
  · rw [Function.update_of_ne hi] at hp
    exact h.proxies i p hp

theorem kept_obeys (id : Nat) (h : Obeys conf O H s) (hk : Safe conf O H db p) : Obeys conf O H (s.kept id db p) := by
  refine obeys_update h hk.sound hk.right (fun q hq => ?_) rfl rfl
  cases hq
  exact hk.access

theorem Safe.disconnected (hk : Safe conf O H db p) : Safe conf O H db { p with connected := false } :=
  ⟨hk.sound,hk.right,hk.access⟩

theorem sending_obeys {what : Sent} (h : Obeys conf O H s) (hj : Justified conf O H what) :
    Obeys conf O H { s with sent := s.sent ++ [what] } := by
  refine ⟨h.sound,h.right,h.proxies,fun x hx => ?_⟩
  rcases List.mem_append.mp hx with hx | hx
  · exact h.sent x hx
  · rw [List.mem_singleton.mp hx]
    exact hj

theorem send_obeys {what : Sent} (id : Nat) (h : Obeys conf O H s) (hk : Safe conf O H db p)
    (hj : Justified conf O H what) : Obeys conf O H (s.send w what id db p).1 := by
  unfold AccessState.send
  split
  next => exact sending_obeys (kept_obeys id h hk) hj
  next => exact sending_obeys (kept_obeys id h hk) hj
  next => exact sending_obeys (kept_obeys id h hk.disconnected) hj

theorem refuse_obeys (id : Nat) (e : DevErrorList) (h : Obeys conf O H s) (hk : Safe conf O H db p) :
    Obeys conf O H (s.refuse w e id db p).1 := by
  unfold AccessState.refuse
  split
  next => exact kept_obeys id h hk.disconnected
  next => exact kept_obeys id h hk

theorem not_read {acc : AccessControlType} (h : ¬acc = .read) : acc = .write := by
  cases acc with
  | read => exact absurd rfl h
  | write => rfl

theorem commandInout_obeys (hw : w ∈ H) (ho : Asked conf O w s.db) (h : Obeys conf O H s) (id : Nat) (cmd : String) :
    Obeys conf O H (commandInout conf w id cmd s).1 := by
  unfold commandInout
  split
  next => exact h
  next p hp =>
    have hk := checkAndReconnect_held hw ⟨⟨h.sound,h.right,h.proxies id p hp⟩,ho⟩
    generalize checkAndReconnect conf w s.db p = r at hk
    obtain ⟨db1,p1,_ | e⟩ := r
    · dsimp only at hk ⊢
      split
      next =>
        obtain ⟨hs,hr,hallowed⟩ := isCommandAllowed_sound p1.name cmd hw hk.asked hk.sound hk.right
        generalize isCommandAllowed conf w p1.name cmd db1 = r at hs hr hallowed
        obtain ⟨db2,e | _ | _⟩ := r
        · exact kept_obeys id h ⟨hs,hr,hk.access⟩
        · exact refuse_obeys id _ h ⟨hs,hr,hk.access⟩
        · exact send_obeys id h ⟨hs,hr,hk.access⟩ (hallowed rfl)
      next hwrite => exact send_obeys id h hk.toSafe (.inl (hk.access (not_read hwrite)))
    · exact kept_obeys id h hk.toSafe

theorem writeAttributes_obeys (hw : w ∈ H) (ho : Asked conf O w s.db) (h : Obeys conf O H s) (id : Nat) :
    Obeys conf O H (writeAttributes conf w id s).1 := by
  unfold writeAttributes
  split
  next => exact h
  next p hp =>
    have hk := checkAndReconnect_held hw ⟨⟨h.sound,h.right,h.proxies id p hp⟩,ho⟩
    generalize checkAndReconnect conf w s.db p = r at hk
    obtain ⟨db1,p1,_ | e⟩ := r
    · dsimp only at hk ⊢
      split
      next => exact refuse_obeys id _ h hk.toSafe
      next hwrite => exact send_obeys id h hk.toSafe (hk.access (not_read hwrite))
    · exact kept_obeys id h hk.toSafe

theorem callDbServer_obeys (hw : w ∈ H) (ho : Asked conf O w s.db) (h : Obeys conf O H s) (cmd : String) :
    Obeys conf O H (callDbServer conf w cmd s).1 := by
  obtain ⟨hs1,hc1⟩ := checkAccess_sound hw ho h.sound
  obtain ⟨hs,hr,hj⟩ := dbCommandInout_sound cmd hw (asked_checked hc1) hs1 (checkAccess_right hw ho h.sound)
  unfold callDbServer
  generalize dbCommandInout conf w cmd (checkAccess conf w s.db) = r at hs hr hj
  obtain ⟨db1,_ | e⟩ := r
  · exact sending_obeys (s := { s with db := db1 }) ⟨hs,hr,h.proxies,h.sent⟩ (hj rfl)
  · exact ⟨hs,hr,h.proxies,h.sent⟩

theorem step_obeys {call : World × Act} (hw : call.1 ∈ H) (ho : Asked conf O call.1 s.db) (h : Obeys conf O H s) :
    Obeys conf O H (step conf s call) := by
  obtain ⟨w,act⟩ := call
  cases act with
  | newProxy id name needCheckAcc =>
    obtain ⟨hs,hr,hp⟩ := newProxy_held hw ho h.sound h.right name needCheckAcc
    exact obeys_update h hs hr hp rfl rfl
  | commandInout id cmd => exact commandInout_obeys hw ho h id cmd
  | writeAttributes id => exact writeAttributes_obeys hw ho h id
  | callDbServer cmd => exact callDbServer_obeys hw ho h cmd

end Calls

section Runs
variable (conf : DbConf)

/-- There is no access control for a run: a call found it off before anything was known. -/
def Off (calls : List (World × Act)) : Prop :=
  ∃ before call after, calls = before ++ call :: after ∧ Unknown (before.foldl (step conf) fresh).db ∧
    OpenIn conf call.1

theorem fresh_obeys (O : Prop) (H : List World) : Obeys conf O H fresh := by
  refine ⟨⟨fun p hp => (by cases hp),fun d c hc => ?_,fun hc => (by cases hc),fun hc => by cases hc⟩,
    fun he => (by cases he),fun id p hp => (by cases hp),fun x hx => by cases hx⟩
  exact absurd (AList.lookup_empty (β := fun _ => String) d ▸ hc) (by simp)

theorem run_obeys {O : Prop} {H : List World} {s : AccessState} (calls : List (World × Act))
    (hH : ∀ call ∈ calls, call.1 ∈ H)
    (ho : ∀ before call after, calls = before ++ call :: after → Asked conf O call.1 (before.foldl (step conf) s).db)
    (h : Obeys conf O H s) : Obeys conf O H (calls.foldl (step conf) s) := by
  induction calls generalizing s with
  | nil => exact h
  | cons call rest ih =>
    have hstep := step_obeys (hH call List.mem_cons_self) (ho [] call rest rfl) h
    refine ih (fun c hc => hH c (List.mem_cons_of_mem call hc)) (fun before c after he => ?_) hstep
    exact ho (call :: before) c after (by rw [he,List.cons_append])

end Runs

section Unreachable
variable (conf : DbConf) {w : World} {db : Db} {p : DevProxy} {s : AccessState}

/-- The first check of the database device could not reach the service: no proxy is made later. -/
structure Stuck (db : Db) : Prop where
  checked : db.accessChecked = true
  proxy : db.accessProxy = none
  access : db.access = .read

/-- The right that a service gives which is never reached. -/
def lateRight (conf : DbConf) (db : Db) (devname : String) : AccessControlType :=
  if devname = conf.dbDeviceName ∨ db.accessServiceDefined = true then .read else .write

/-- A database object that is stuck stays so, and goes on to find the service defined or not. -/
structure SameStuck (before after : Db) : Prop extends Stuck after where
  defined : after.accessServiceDefined = before.accessServiceDefined

theorem stuck_self (h : Stuck db) : SameStuck db db := ⟨h,rfl⟩

theorem stuck_checkAccessControl (w : World) (devname : String) (h : Stuck db) :
    SameStuck db (checkAccessControl conf w devname db).1 ∧
      (checkAccessControl conf w devname db).2 = lateRight conf db devname := by
  unfold checkAccessControl lateRight
  by_cases hd : devname = conf.dbDeviceName
  · rw [if_pos (by simp [h.checked,hd]),if_pos (.inl hd)]
    exact ⟨stuck_self h,h.access⟩
  · rw [if_neg (by simp [hd]),h.proxy,if_pos h.checked]
    dsimp only
    refine ⟨⟨⟨h.checked,rfl,h.access⟩,rfl⟩,?_⟩
    simp [hd]

theorem stuck_firstProxy (w : World) (devname : String) (h : Stuck db) :
    ∃ db1, SameStuck db db1 ∧ firstProxy conf w devname db = (db1,.inl (lateRight conf db devname ≠ .read)) := by
  obtain ⟨hk,hacc⟩ := stuck_checkAccessControl conf w devname h
  refine ⟨(checkAccessControl conf w devname db).1,hk,?_⟩
  unfold firstProxy
  rw [h.proxy]
  dsimp only
  rw [hk.proxy,hacc]

theorem lateRight_db : lateRight conf db conf.dbDeviceName = .read := if_pos (.inl rfl)

theorem stuck_dbCommandInout (w : World) (cmd : String) (h : Stuck db) :
    ∃ db1 e, SameStuck db db1 ∧ dbCommandInout conf w cmd db = (db1,some e) := by
  obtain ⟨db1,hk,hf⟩ := stuck_firstProxy conf w conf.dbDeviceName h
  rw [lateRight_db conf] at hf
  have hno : dbCommandAllowed conf w cmd db = (db1,false) := by
    unfold dbCommandAllowed
    rw [hf]
    rfl
  unfold dbCommandInout
  rw [if_pos h.access,hno]
  exact ⟨db1,_,hk,rfl⟩

theorem stuck_callDbServer (w : World) (cmd : String) (h : Stuck s.db) :
    ∃ db1 e, SameStuck s.db db1 ∧ callDbServer conf w cmd s = ({ s with db := db1 },some e) := by
  obtain ⟨db1,e,hk,hin⟩ := stuck_dbCommandInout conf w cmd h
  refine ⟨db1,e,hk,?_⟩
  unfold callDbServer checkAccess
  rw [if_pos h.checked,hin]

theorem stuck_isCommandAllowed (w : World) (devname cmd : String) (h : Stuck db) :
    ∃ db1, SameStuck db db1 ∧
      isCommandAllowed conf w devname cmd db = (db1,.ok (lateRight conf db devname ≠ .read)) := by
  obtain ⟨db1,hk,hf⟩ := stuck_firstProxy conf w devname h
  refine ⟨db1,hk,?_⟩
  unfold isCommandAllowed dbCommandAllowed
  split
  next hd =>
    subst hd
    rw [hf]
  next => rw [hf]

theorem SameStuck.trans {db1 db2 : Db} (h1 : SameStuck db db1) (h2 : SameStuck db1 db2) : SameStuck db db2 :=
  ⟨h2.toStuck,h2.defined.trans h1.defined⟩

theorem stuck_imported (devname : String) (classname : Option String) (h : Stuck db) :
    SameStuck db (db.imported devname classname) := by
  unfold Db.imported
  split
  next => exact ⟨⟨h.checked,h.proxy,h.access⟩,rfl⟩
  next => exact stuck_self h

/-- The right of a proxy is left, or becomes the late one. -/
theorem stuck_getCorbaName (w : World) (needCheckAcc : Bool) (h : Stuck db) :
    SameStuck db (getCorbaName conf w needCheckAcc db p).1 ∧
      (getCorbaName conf w needCheckAcc db p).2.1.name = p.name ∧
      ((getCorbaName conf w needCheckAcc db p).2.1.access = p.access ∨
        (getCorbaName conf w needCheckAcc db p).2.1.access = lateRight conf db p.name) := by
  unfold getCorbaName
  split
  next => exact ⟨stuck_self h,rfl,.inl rfl⟩
  next classname _ => exact ⟨stuck_imported p.name classname h,rfl,.inl rfl⟩
  next classname _ =>
    have hi := stuck_imported p.name classname h
    split
    next =>
      obtain ⟨hk,hacc⟩ := stuck_checkAccessControl conf w p.name hi.toStuck
      refine ⟨hi.trans hk,rfl,.inr ?_⟩
      dsimp only
      rw [hacc]
      unfold lateRight
      rw [hi.defined]
    next => exact ⟨hi,rfl,.inl rfl⟩

theorem stuck_reconnect (w : World) (h : Stuck db) :
    SameStuck db (reconnect conf w db p).1 ∧ (reconnect conf w db p).2.1.name = p.name ∧
      ((reconnect conf w db p).2.1.access = p.access ∨
        (reconnect conf w db p).2.1.access = lateRight conf db p.name) := by
  obtain ⟨hk,hname,hacc⟩ := stuck_getCorbaName conf (p := p) w p.checkAcc h
  unfold reconnect
  generalize getCorbaName conf w p.checkAcc db p = r at hk hname hacc
  obtain ⟨db1,p1,_ | e⟩ := r
  · dsimp only at hk hname hacc ⊢
    refine ⟨?_,hname,hacc⟩
    split
    next => exact hk
    next => exact ⟨⟨hk.checked,hk.proxy,hk.access⟩,hk.defined⟩
  · exact ⟨hk,hname,hacc⟩

theorem stuck_checkAndReconnect (w : World) (h : Stuck db) :
    SameStuck db (checkAndReconnect conf w db p).1 ∧
      ((checkAndReconnect conf w db p).2.1.access = p.access ∨
        (checkAndReconnect conf w db p).2.1.access = lateRight conf db p.name) := by
  obtain ⟨hk,-,hacc⟩ := stuck_reconnect conf (p := p) w h
  unfold checkAndReconnect
  split
  next => exact ⟨stuck_self h,.inl rfl⟩
  next =>
    split
    next => exact ⟨stuck_self h,.inl rfl⟩
    next => exact ⟨hk,hacc⟩

theorem stuck_newProxy (w : World) (name : String) (needCheckAcc : Bool) (h : Stuck db) :
    SameStuck db (newProxy conf w name needCheckAcc db).1 ∧
      ∀ p, (newProxy conf w name needCheckAcc db).2 = some p →
        p.access = .read ∨ p.access = lateRight conf db name := by
  obtain ⟨hk,hname,hacc⟩ := stuck_getCorbaName conf (p := ⟨name,.read,true,false⟩) w needCheckAcc h
  unfold newProxy
  generalize getCorbaName conf w needCheckAcc db ⟨name,.read,true,false⟩ = r at hk hname hacc
  obtain ⟨db1,p1,e⟩ := r
  dsimp only at hk hname hacc ⊢
  split
  next => exact ⟨hk,fun p hp => by cases hp⟩
  next =>
    split
    next =>
      refine ⟨hk,fun p hp => ?_⟩
      cases hp
      exact hacc
    next =>
      obtain ⟨hk2,-,hacc2⟩ := stuck_reconnect conf (p := p1) w hk.toStuck
      have hacc3 : (reconnect conf w db1 p1).2.1.access = .read ∨
          (reconnect conf w db1 p1).2.1.access = lateRight conf db name := by
        rcases hacc2 with he | he
        · rw [he]
          exact hacc
        · refine .inr ?_
          rw [he,hname]
          unfold lateRight
          rw [hk.defined]
      generalize reconnect conf w db1 p1 = r at hk2 hacc3
      obtain ⟨db2,p2,_ | e2⟩ := r
      · refine ⟨hk.trans hk2,fun p hp => ?_⟩
        cases hp
        exact hacc3
      · refine ⟨hk.trans hk2,fun p hp => ?_⟩
        dsimp only at hp
        split at hp
        next =>
          cases hp
          exact hacc3
        next => cases hp

theorem send_db (what : Sent) (id : Nat) : (s.send w what id db p).1.db = db := by
  unfold AccessState.send
  cases w.reply <;> rfl

theorem refuse_db (e : DevErrorList) (id : Nat) : (s.refuse w e id db p).1.db = db := by
  unfold AccessState.refuse
  cases w.pingDevice <;> rfl

/-- The right of nobody changes any more: the proxies that are made later and those that connect again get the late
one. -/
theorem stuck_step (call : World × Act) (h : Stuck s.db) : SameStuck s.db (step conf s call).db := by
  obtain ⟨w,act⟩ := call
  cases act with
  | newProxy id name needCheckAcc => exact (stuck_newProxy conf w name needCheckAcc h).1
  | callDbServer cmd =>
    obtain ⟨db1,e,hk,hc⟩ := stuck_callDbServer conf w cmd h
    dsimp only [step]
    rw [hc]
    exact hk
  | commandInout id cmd =>
    dsimp only [step]
    unfold commandInout
    split
    next => exact stuck_self h
    next p hp =>
      obtain ⟨hk,-⟩ := stuck_checkAndReconnect conf (p := p) w h
      generalize checkAndReconnect conf w s.db p = r at hk
      obtain ⟨db1,p1,_ | e⟩ := r
      · dsimp only at hk ⊢
        split
        next =>
          obtain ⟨db2,hk2,hc⟩ := stuck_isCommandAllowed conf w p1.name cmd hk.toStuck
          rw [hc]
          cases decide (lateRight conf db1 p1.name ≠ .read) with
          | true =>
            dsimp only
            rw [send_db]
            exact hk.trans hk2
          | false =>
            dsimp only
            rw [refuse_db]
            exact hk.trans hk2
        next =>
          rw [send_db]
          exact hk
      · exact hk
  | writeAttributes id =>
    dsimp only [step]
    unfold writeAttributes
    split
    next => exact stuck_self h
    next p hp =>
      obtain ⟨hk,-⟩ := stuck_checkAndReconnect conf (p := p) w h
      generalize checkAndReconnect conf w s.db p = r at hk
      obtain ⟨db1,p1,_ | e⟩ := r
      · dsimp only at hk ⊢
        split
        next =>
          rw [refuse_db]
          exact hk
        next =>
          rw [send_db]
          exact hk
      · exact hk

/-- Everything is closed: the service is defined and nobody has the right to write. -/
structure Quiet (before s : AccessState) : Prop extends Stuck s.db where
  defined : s.db.accessServiceDefined = true
  proxies : ∀ id p, s.proxies id = some p → p.access = .read
  sent : s.sent = before.sent

theorem lateRight_defined {devname : String} (h : db.accessServiceDefined = true) : lateRight conf db devname = .read :=
  if_pos (.inr h)

theorem quiet_update {before s' : AccessState} {id : Nat} {q : Option DevProxy} (h : Quiet before s)
    (hk : SameStuck s.db s'.db) (hq : ∀ p, q = some p → p.access = .read)
    (hproxies : s'.proxies = Function.update s.proxies id q) (hsent : s'.sent = s.sent) : Quiet before s' := by
  refine ⟨hk.toStuck,hk.defined.trans h.defined,fun i p hp => ?_,hsent.trans h.sent⟩
  rw [hproxies] at hp
  by_cases hi : i = id
  · subst hi
    rw [Function.update_self] at hp
    exact hq p hp
  · rw [Function.update_of_ne hi] at hp
    exact h.proxies i p hp

theorem quiet_kept {before : AccessState} (id : Nat) (h : Quiet before s) (hk : SameStuck s.db db)
    (hp : p.access = .read) : Quiet before (s.kept id db p) := by
  refine quiet_update h hk (fun q hq => ?_) rfl rfl
  cases hq
  exact hp

theorem quiet_refuse {before : AccessState} (id : Nat) (e : DevErrorList) (h : Quiet before s)
    (hk : SameStuck s.db db) (hp : p.access = .read) : Quiet before (s.refuse w e id db p).1 := by
  unfold AccessState.refuse
  split
  next => exact quiet_kept id h hk hp
  next => exact quiet_kept id h hk hp

theorem quiet_step {before : AccessState} (call : World × Act) (h : Quiet before s) :
    Quiet before (step conf s call) := by
  obtain ⟨w,act⟩ := call
  have hread : ∀ {p : DevProxy}, p.access = .read → (checkAndReconnect conf w s.db p).2.1.access = .read := by
    intro p hp
    rcases (stuck_checkAndReconnect conf (p := p) w h.toStuck).2 with he | he
    · exact he.trans hp
    · exact he.trans (lateRight_defined conf h.defined)
  cases act with
  | newProxy id name needCheckAcc =>
    obtain ⟨hk,hp⟩ := stuck_newProxy conf w name needCheckAcc h.toStuck
    refine quiet_update h hk (fun p he => ?_) rfl rfl
    rcases hp p he with hacc | hacc
    · exact hacc
    · exact hacc.trans (lateRight_defined conf h.defined)
  | callDbServer cmd =>
    obtain ⟨db1,e,hk,hc⟩ := stuck_callDbServer conf w cmd h.toStuck
    dsimp only [step]
    rw [hc]
    exact ⟨hk.toStuck,hk.defined.trans h.defined,h.proxies,h.sent⟩
  | commandInout id cmd =>
    dsimp only [step]
    unfold commandInout
    split
    next => exact h
    next p hp =>
      obtain ⟨hk,-⟩ := stuck_checkAndReconnect conf (p := p) w h.toStuck
      have hacc := hread (h.proxies id p hp)
      generalize checkAndReconnect conf w s.db p = r at hk hacc
      obtain ⟨db1,p1,_ | e⟩ := r
      · dsimp only at hk hacc ⊢
        obtain ⟨db2,hk2,hc⟩ := stuck_isCommandAllowed conf w p1.name cmd hk.toStuck
        rw [lateRight_defined conf (hk.defined.trans h.defined)] at hc
        rw [if_pos hacc,hc]
        exact quiet_refuse id _ h (hk.trans hk2) hacc
      · exact quiet_kept id h hk hacc
  | writeAttributes id =>
    dsimp only [step]
    unfold writeAttributes
    split
    next => exact h
    next p hp =>
      obtain ⟨hk,-⟩ := stuck_checkAndReconnect conf (p := p) w h.toStuck
      have hacc := hread (h.proxies id p hp)
      generalize checkAndReconnect conf w s.db p = r at hk hacc
      obtain ⟨db1,p1,_ | e⟩ := r
      · dsimp only at hk hacc ⊢
        rw [if_pos hacc]
        exact quiet_refuse id _ h hk hacc
      · exact quiet_kept id h hk hacc

/-- The first check of the right on the database device, when the service cannot be reached. -/
theorem checkAccess_stuck {name : String} {inDb : Bool} {e : DevErrorList} (hc : db.accessChecked = false)
    (hp : db.accessProxy = none) (hserv : chooseService w = some (name,inDb))
    (hctor : realCtor w (accessDeviceName conf name) = .error e) :
    Stuck (checkAccess conf w db) ∧
      (checkAccess conf w db).accessServiceDefined = (db.accessServiceDefined || inDb) := by
  have hno : ¬(db.accessChecked && decide (conf.dbDeviceName = conf.dbDeviceName)) = true := by simp [hc]
  have hfalse : ¬db.accessChecked = true := by simp [hc]
  unfold checkAccess checkAccessControl
  rw [if_neg hfalse,if_neg hno,hp]
  dsimp only
  rw [if_neg hfalse,hserv]
  dsimp only
  rw [hctor]
  exact ⟨⟨rfl,rfl,rfl⟩,rfl⟩

theorem callDbServer_stuck {name : String} {inDb : Bool} {e : DevErrorList} (cmd : String)
    (hc : s.db.accessChecked = false) (hp : s.db.accessProxy = none) (hserv : chooseService w = some (name,inDb))
    (hctor : realCtor w (accessDeviceName conf name) = .error e) :
    ∃ db1 e', Stuck db1 ∧ db1.accessServiceDefined = (s.db.accessServiceDefined || inDb) ∧
      callDbServer conf w cmd s = ({ s with db := db1 },some e') := by
  obtain ⟨hk,hdef⟩ := checkAccess_stuck conf hc hp hserv hctor
  obtain ⟨db1,e',hk1,hin⟩ := stuck_dbCommandInout conf w cmd hk
  refine ⟨db1,e',hk1.toStuck,hk1.defined.trans hdef,?_⟩
  unfold callDbServer
  rw [hin]

theorem run_stuck (calls : List (World × Act)) (h : Stuck s.db) : SameStuck s.db (calls.foldl (step conf) s).db := by
  induction calls generalizing s with
  | nil => exact stuck_self h
  | cons call rest ih =>
    have hstep := stuck_step conf call h
    exact hstep.trans (ih hstep.toStuck)

theorem run_quiet {before : AccessState} (calls : List (World × Act)) (h : Quiet before s) :
    Quiet before (calls.foldl (step conf) s) := by
  induction calls generalizing s with
  | nil => exact h
  | cons call rest ih => exact ih (quiet_step conf call h)

def sampleErrors : DevErrorList :=
  thrown "API_DeviceNotExported" "Device sys/access/1 is not exported" "DeviceProxy::ping"

/-- Nothing answers but the property of the services. -/
def silent (accessDevname : Option String) (services : List String) : World where
  superTango := none
  accessDevname := accessDevname
  services := services
  build := fun _ => none
  ping := fun _ => some sampleErrors
  user := none
  addresses := none
  getAccessForMultiIp := fun _ _ _ => .error sampleErrors
  getAccess := fun _ _ _ => .error sampleErrors
  getAllowedCommands := fun _ => .error sampleErrors
  getClassForDevice := fun _ => .error sampleErrors
  importDevice := fun _ => .error ⟨sampleErrors,true⟩
  tooSoon := none
  connect := none
  pingDevice := none
  reply := .done

def sampleConf : DbConf := ⟨"sys/database/2","dbhost","10000",true⟩

end Unreachable

end CppTango.Client.Access
