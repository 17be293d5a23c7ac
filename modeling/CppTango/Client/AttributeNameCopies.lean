import CppTango.Client.AttributeName

namespace CppTango.Client.Names
open CppTango.Lib

section Devices
variable {w : World} {d e : DeviceProxy}

/-- A device proxy reads its name as these parts: the device or the alias, on this database or this host and port. -/
structure Reaches (w : World) (parts : Parts) (dbase : Bool) (d : DeviceProxy) : Prop where
  dbaseUsed : d.dbaseUsed = dbase
  fromEnvVar : d.fromEnvVar = parts.address.isNone
  isAlias : d.isAlias = parts.named.isAlias
  device : parts.named.isAlias = false → d.deviceName = parts.named.text
  behindAlias : ∀ x, parts.named = .devAlias x →
    d.aliasName = x ∧ d.deviceName = lower (w.realName d.dbHost d.dbPort x)
  environment : parts.address = none → d.dbHost = w.envHost ∧ d.dbPort = w.envPort
  database : ∀ a, dbase = true → parts.address = some a → d.dbHost = a.host ∧ d.dbPort = a.port
  server : ∀ a, dbase = false → parts.address = some a → d.host = a.host ∧ d.port = a.port

theorem DeviceProxy.opened_marks (w : World) (d : DeviceProxy) :
    (d.opened w).dbaseUsed = d.dbaseUsed ∧ (d.opened w).fromEnvVar = d.fromEnvVar ∧ (d.opened w).isAlias = d.isAlias ∧
      (d.opened w).aliasName = d.aliasName ∧ (d.opened w).host = d.host ∧ (d.opened w).port = d.port := by
  unfold DeviceProxy.opened
  by_cases hd : d.dbaseUsed = true ∧ d.fromEnvVar = true
  · rw [if_pos hd]
    by_cases ha : d.isAlias = true
    · simp [ha]
    · simp [ha]
  · rw [if_neg hd]
    by_cases ha : d.isAlias = true
    · simp [ha]
    · simp [ha]

/-- In the environment's database. -/
theorem DeviceProxy.opened_environment (hd : d.dbaseUsed = true ∧ d.fromEnvVar = true) :
    (d.opened w).dbHost = w.envHost ∧ (d.opened w).dbPort = w.envPort := by
  unfold DeviceProxy.opened
  rw [if_pos hd]
  by_cases ha : d.isAlias = true
  · simp [ha]
  · simp [ha]

theorem DeviceProxy.opened_database (hd : ¬ (d.dbaseUsed = true ∧ d.fromEnvVar = true)) :
    (d.opened w).dbHost = d.dbHost ∧ (d.opened w).dbPort = d.dbPort := by
  unfold DeviceProxy.opened
  rw [if_neg hd]
  by_cases ha : d.isAlias = true
  · simp [ha]
  · simp [ha]

theorem DeviceProxy.opened_device (ha : d.isAlias = false) : (d.opened w).deviceName = d.deviceName := by
  unfold DeviceProxy.opened
  by_cases hd : d.dbaseUsed = true ∧ d.fromEnvVar = true
  · simp [hd,ha]
  · simp [hd,ha]

theorem DeviceProxy.opened_alias (ha : d.isAlias = true) :
    (d.opened w).deviceName = lower (w.realName (d.opened w).dbHost (d.opened w).dbPort d.deviceName) := by
  unfold DeviceProxy.opened
  by_cases hd : d.dbaseUsed = true ∧ d.fromEnvVar = true
  · simp [hd,ha]
  · simp [hd,ha]

theorem Parts.stored_aliasName {getFqdn : Text → Text} (d : DeviceProxy) {p : Parts} {x : Text} (hx : p.named = .devAlias x) :
    (p.stored d getFqdn).aliasName = x := by
  unfold Parts.stored
  rw [hx]
  cases p.address with
  | none => rfl
  | some a =>
    dsimp only
    split <;> rfl

/-- A name with plain words leads a new device proxy to what it names. -/
theorem newDeviceProxy_reaches (hfqdn : ∀ h, w.getFqdn h = h) {name : Text} {front : Front} {parts : Parts} {m : Modifier}
    (hlow : lower name = front.text ++ (parts.text ++ m.text)) (hp : parts.Proper m.dbase) (hw : parts.Plain) :
    ∃ d, newDeviceProxy w name = .ok d ∧ Reaches w parts m.dbase d := by
  have htaken : Written.Taken ⟨front,parts,m⟩ (lower name) := by
    rw [hlow]
    exact Written.taken_of_plain (w := ⟨front,parts,m⟩) hp hw
  have hparse : parseName name (.initialised w.memory.1 w.memory.2.1 w.memory.2.2.1 w.memory.2.2.2) w.getFqdn = _ :=
    parseName_taken _ htaken
  generalize hfresh : ({ DeviceProxy.initialised w.memory.1 w.memory.2.1 w.memory.2.2.1 w.memory.2.2.2 with
    dbaseUsed := m.dbase } : DeviceProxy) = fresh at hparse
  have hkept : parts.Kept streamInt m.dbase (parts.stored fresh w.getFqdn) := by
    have h := Parts.stored_kept hfqdn (d := fresh) (by rw [← hfresh]; rfl) parts
    rwa [show fresh.dbaseUsed = m.dbase by rw [← hfresh]] at h
  have hname (x : Text) (hx : parts.named = .devAlias x) : (parts.stored fresh w.getFqdn).aliasName = x :=
    Parts.stored_aliasName fresh hx
  refine ⟨(parts.stored fresh w.getFqdn).opened w,?_,?_⟩
  · unfold newDeviceProxy
    rw [hparse]
  · generalize parts.stored fresh w.getFqdn = d at hkept hname
    obtain ⟨h1,h2,h3,h4,h5,h6⟩ := d.opened_marks w
    refine ⟨h1.trans hkept.dbaseUsed,h2.trans hkept.fromEnvVar,h3.trans hkept.isAlias,fun hx => ?_,fun x hx => ?_,
      fun ha => ?_,fun a hb ha => ?_,fun a hb ha => ?_⟩
    · rw [DeviceProxy.opened_device (hkept.isAlias.trans hx),hkept.deviceName]
    · have halias : d.isAlias = true := hkept.isAlias.trans (by rw [hx]; rfl)
      refine ⟨h4.trans (hname x hx),?_⟩
      rw [DeviceProxy.opened_alias halias,hkept.deviceName,hx]
      rfl
    · have hb : m.dbase = true := by
        by_contra hn
        have hsome := (hp.noDbase (Bool.eq_false_iff.mpr hn)).1
        rw [ha] at hsome
        cases hsome
      exact DeviceProxy.opened_environment ⟨hkept.dbaseUsed.trans hb,hkept.fromEnvVar.trans (by rw [ha]; rfl)⟩
    · have henv : d.fromEnvVar = false := hkept.fromEnvVar.trans (by rw [ha]; rfl)
      obtain ⟨ho1,ho2⟩ := DeviceProxy.opened_database (w := w) (d := d) fun h => by rw [henv] at h; cases h.2
      obtain ⟨hk1,hk2,-⟩ := hkept.database a hb ha
      exact ⟨ho1.trans hk1,ho2.trans hk2⟩
    · obtain ⟨hk1,hk2,-⟩ := hkept.server a hb ha
      exact ⟨h5.trans hk1,h6.trans hk2⟩

/-- Two device proxies of the same device on the same database, or on the same host and port. -/
structure SameDevice (d e : DeviceProxy) : Prop where
  dbaseUsed : e.dbaseUsed = d.dbaseUsed
  deviceName : e.deviceName = d.deviceName
  database : d.dbaseUsed = true → e.dbHost = d.dbHost ∧ e.dbPort = d.dbPort
  server : d.dbaseUsed = false → e.host = d.host ∧ e.port = d.port

end Devices

section Construct
variable {w : World} {p : AttributeProxy} (n : AttributeName)

theorem AttributeName.lower_parts : lower n.parts.text = n.parts.text := by
  have h := n.lowerBefore
  rw [← List.append_nil n.parts.text] at h
  exact lower_part h

theorem AttributeName.lower_named : lower n.parts.named.text = n.parts.named.text := by
  have h := n.lower_parts
  unfold Parts.text at h
  cases ha : n.parts.address with
  | none =>
    rw [ha] at h
    exact h
  | some a =>
    rw [ha] at h
    dsimp only at h
    refine @lower_part (a.text ++ '/' :: n.parts.named.text) (a.text ++ ['/']) n.parts.named.text [] ?_
    rw [h]
    simp

theorem Front.lower_text (front : Front) : lower front.text = front.text := by
  cases front <;> decide

theorem Modifier.lower_text (m : Modifier) : lower m.text = m.text := by
  cases m <;> decide

/-- The proxy of an attribute and of its device, after the construction. -/
structure Built (w : World) (n : AttributeName) (p : AttributeProxy) (d : DeviceProxy) : Prop where
  devProxy : p.devProxy = some d
  reaches : Reaches w n.parts n.modifier.dbase d
  attrName : p.attrName = n.attr
  deviceName : p.deviceName = d.deviceName
  dbaseUsed : p.dbaseUsed = n.modifier.dbase
  fromEnvVar : n.modifier.dbase = true → p.fromEnvVar = n.parts.address.isNone
  database : n.modifier.dbase = true → p.dbHost = d.dbHost ∧ p.dbPort = d.dbPort
  server : n.modifier.dbase = false → p.host = d.host ∧ p.port = d.port

theorem checked_done (hconf : ∀ dev att, w.attributeConfig dev att = .done) (p : AttributeProxy) : p.checked w = .ok p := by
  unfold AttributeProxy.checked
  rw [hconf]

theorem realConstructor_env {name : Text} {q : AttributeProxy} {d : DeviceProxy} (hq : parseAttributeName w p name = .ok q)
    (hd : q.dbaseUsed = true) (he : q.fromEnvVar = true) (hnew : newDeviceProxy w q.deviceName = .ok d) :
    realConstructor w p name = ({ q with
      devProxy := some d, deviceName := if q.aliasName ≠ [] then d.deviceName else q.deviceName,
      dbAttr := some ⟨q.attrName,if q.aliasName ≠ [] then d.deviceName else q.deviceName,none⟩, dbHost := w.envHost,
      dbPort := w.envPort, dbPortNum := w.envPortNum } : AttributeProxy).checked w := by
  unfold realConstructor
  rw [hq,ok_bind]
  dsimp only
  rw [if_pos hd,if_pos he,hnew]
  rfl

theorem realConstructor_placed {name : Text} {q : AttributeProxy} (hq : parseAttributeName w p name = .ok q)
    (hd : q.dbaseUsed = true) (he : q.fromEnvVar = false) :
    realConstructor w p name = newDeviceProxy w (placedName q.dbHost q.dbPort q.deviceName) >>= fun d =>
      ({ q with devProxy := some d, dbAttr := some ⟨q.attrName,q.deviceName,some (q.dbHost,q.dbPort)⟩ } :
        AttributeProxy).checked w := by
  unfold realConstructor
  rw [hq,ok_bind]
  dsimp only
  rw [if_pos hd,if_neg (by rw [he]; decide)]
  cases newDeviceProxy w (placedName q.dbHost q.dbPort q.deviceName) with
  | ok d => rfl
  | error e => rfl

theorem realConstructor_noDb {name front : Text} {t : Text} {q : AttributeProxy} {d : DeviceProxy}
    (hq : parseAttributeName w p name = .ok q) (hd : q.dbaseUsed = false) (hlow : lower name = front ++ '/' :: t)
    (ht : '/' ∉ t) (hnew : newDeviceProxy w (front ++ '#' :: dbaseNo) = .ok d) :
    realConstructor w p name = ({ q with devProxy := some d, dbAttr := none } : AttributeProxy).checked w := by
  unfold realConstructor
  rw [hq,ok_bind]
  dsimp only
  rw [if_neg (by rw [hd]; decide),hlow,rfind_last ht,Option.getD_some,List.take_left,hnew]
  rfl

/-- A name of a device on a database, as it is put together again. -/
theorem placedName_device {a : Address} {x : Named} (hx : x.isAlias = false) :
    placedName a.host a.port (Parts.mk (some a) x).deviceName = (Parts.mk (some a) x).text := by
  cases x with
  | device dom fam mem => simp [placedName,Parts.deviceName,Parts.text,Address.text]
  | devAlias y => cases hx

section Twice
variable {a : Address} {y : Text}

theorem Address.port_head (ha : a.Proper) (t : Text) : (a.port ++ t).head? ≠ some '/' := by
  obtain ⟨c,r,ht⟩ := List.exists_cons_of_ne_nil ha.port.1
  rw [ht,List.cons_append,List.head?_cons]
  rintro ⟨⟩
  exact absurd (ha.port.2 '/' (by rw [ht]; exact List.mem_cons_self)) (by decide)

theorem Address.port_clear (ha : a.Proper) {c : Char} (hc : c.isDigit = false) : c ∉ a.port := by
  intro hm
  rw [ha.port.2 c hm] at hc
  cases hc

/-- A place behind a place has no protocol in it either. -/
theorem twice_protSep (ha : a.Proper) (hy : ':' ∉ y) : ¬ protSep <:+: a.text ++ '/' :: (a.text ++ '/' :: y) := by
  have hlast : ':' ∉ a.port ++ '/' :: y := by
    rw [List.mem_append,List.mem_cons]
    rintro (h | h | h)
    · exact Address.port_clear ha rfl h
    · cases h
    · exact hy h
  have hmid : ':' ∉ a.port ++ '/' :: a.host := by
    rw [List.mem_append,List.mem_cons]
    rintro (h | h | h)
    · exact Address.port_clear ha rfl h
    · cases h
    · exact ha.host.2.2 h
  have htail : ¬ protSep <:+: a.port ++ '/' :: (a.text ++ '/' :: y) := by
    have htext : a.port ++ '/' :: (a.text ++ '/' :: y) = (a.port ++ '/' :: a.host) ++ ':' :: (a.port ++ '/' :: y) := by
      simp [Address.text]
    rw [htext]
    exact not_protSep hmid (not_protSep_of_clear hlast) (Address.port_head ha _)
  have htext : a.text ++ '/' :: (a.text ++ '/' :: y) = a.host ++ ':' :: (a.port ++ '/' :: (a.text ++ '/' :: y)) := by
    rw [Address.text,List.append_assoc]
    rfl
  rw [htext]
  exact not_protSep ha.host.2.2 htail (Address.port_head ha _)

theorem parseDbase_twice (ha : a.Proper) (hy : '/' ∉ y) (fullName : Text) (d : DeviceProxy) (getFqdn : Text → Text) :
    parseDbase fullName d getFqdn (a.text ++ '/' :: (a.text ++ '/' :: y)) = .error (wrongDevice fullName) := by
  have hport : '/' ∉ a.port := Address.port_clear ha rfl
  have hcolon : a.text.idxOf? ':' = some a.host.length := idxOf?_append_sep ha.host.2.2 _
  unfold parseDbase
  rw [Address.cut ha.host.2.1 hport]
  dsimp only
  rw [substr_front,ok_bind,hcolon]
  dsimp only
  rw [parseDbHost_eq]
  unfold parseObject
  rw [Address.cut ha.host.2.1 hport]
  dsimp only
  rcases checkFields_cases (wrongDevice fullName) a.text y with he | ⟨-,b,m,-,-,-,rfl⟩
  · rw [he]
    rfl
  · exact absurd (by simp) hy

/-- The name of an alias gets its place twice. -/
theorem placedName_refused (hp : (Parts.mk (some a) (.devAlias y)).Proper true)
    (hw : (Parts.mk (some a) (.devAlias y)).Plain) (hlow : lower a.text = a.text) (hy : lower y = y) :
    ∃ e, newDeviceProxy w (placedName a.host a.port (Parts.mk (some a) (.devAlias y)).deviceName) = .error (.name e) := by
  have hname : placedName a.host a.port (Parts.mk (some a) (.devAlias y)).deviceName =
      a.text ++ '/' :: (a.text ++ '/' :: y) := by
    simp [placedName,Parts.deviceName,Address.text]
  have ha := hp.address a rfl
  have hlowname : lower (a.text ++ '/' :: (a.text ++ '/' :: y)) = a.text ++ '/' :: (a.text ++ '/' :: y) := by
    rw [lower_append,hlow]
    change a.text ++ '/' :: lower (a.text ++ '/' :: y) = _
    rw [lower_append,hlow]
    change a.text ++ '/' :: (a.text ++ '/' :: lower y) = _
    rw [hy]
  have hframed : Framed (lower (a.text ++ '/' :: (a.text ++ '/' :: y))) .bare (a.text ++ '/' :: (a.text ++ '/' :: y))
      .absent := by
    obtain ⟨c,t,ht⟩ := List.exists_cons_of_ne_nil ha.host.1
    rw [hlowname]
    refine ⟨by simp,(List.append_nil _).symm,⟨twice_protSep ha (hw.1.clear (by decide)),?_⟩,?_⟩
    · rintro ⟨⟨r,hr⟩,-⟩
      rw [Address.text,ht] at hr
      exact word_ne (hw.2 a rfl c (by rw [ht]; exact List.mem_cons_self)) (by decide) (List.cons.inj hr).1.symm
    · have hclear := Parts.plain_hash hp hw
      simp only [Parts.text,Named.text,List.mem_append,List.mem_cons,not_or] at hclear ⊢
      exact ⟨hclear.1,hclear.2.1,hclear.1,hclear.2⟩
  have hdb : Modifier.absent.dbase = true := rfl
  refine ⟨wrongDevice (a.text ++ '/' :: (a.text ++ '/' :: y)),?_⟩
  unfold newDeviceProxy
  rw [hname,parseName_framed _ hframed,if_pos hdb,parseDbase_twice ha hp.named.2.1]

end Twice

theorem AttributeName.parts_mk {address : Option Address} (ha : n.parts.address = address) :
    n.parts = ⟨address,n.parts.named⟩ := by
  rw [← ha]

theorem AttributeName.dbase_of_none (ha : n.parts.address = none) : n.modifier.dbase = true := by
  by_contra hn
  have hsome := (n.proper.noDbase (Bool.eq_false_iff.mpr hn)).1
  rw [ha] at hsome
  cases hsome

theorem Parts.deviceName_device {parts : Parts} (h : parts.address.isSome = true → parts.named.isAlias = false) :
    parts.deviceName = parts.named.text := by
  obtain ⟨address,x⟩ := parts
  cases address with
  | none => rfl
  | some a =>
    cases x with
    | device dom fam mem => rfl
    | devAlias y => cases h rfl

section Parsed
variable {n}

theorem parsed_environment (ha : n.parts.address = none) :
    (p.parsed n).dbaseUsed = n.modifier.dbase ∧ (p.parsed n).fromEnvVar = true ∧
      (p.parsed n).deviceName = n.parts.deviceName ∧
      (p.parsed n).aliasName = (if n.parts.named.isAlias = true then n.parts.deviceName else p.aliasName) := by
  unfold AttributeProxy.parsed AttributeProxy.placed AttributeProxy.fielded
  rw [ha]
  exact ⟨rfl,rfl,rfl,rfl⟩

theorem parsed_database {a : Address} (ha : n.parts.address = some a) (hdb : n.modifier.dbase = true) :
    (p.parsed n).dbaseUsed = true ∧ (p.parsed n).fromEnvVar = false ∧ (p.parsed n).deviceName = n.parts.deviceName ∧
      (p.parsed n).dbHost = a.host ∧ (p.parsed n).dbPort = a.port ∧ (p.parsed n).attrName = n.attr := by
  unfold AttributeProxy.parsed AttributeProxy.placed AttributeProxy.fielded
  rw [ha]
  dsimp only
  rw [if_pos hdb]
  exact ⟨hdb,rfl,rfl,rfl,rfl,rfl⟩

theorem parsed_server {a : Address} (ha : n.parts.address = some a) (hdb : n.modifier.dbase = false) :
    (p.parsed n).dbaseUsed = false ∧ (p.parsed n).deviceName = n.parts.deviceName ∧ (p.parsed n).host = a.host ∧
      (p.parsed n).port = a.port ∧ (p.parsed n).attrName = n.attr := by
  unfold AttributeProxy.parsed AttributeProxy.placed AttributeProxy.fielded
  rw [ha]
  dsimp only
  rw [if_neg (by rw [hdb]; decide)]
  exact ⟨hdb,rfl,rfl,rfl,rfl⟩

end Parsed

section Assumed
variable (hfqdn : ∀ h, w.getFqdn h = h) (hconf : ∀ dev att, w.attributeConfig dev att = .done)
include hfqdn hconf

theorem built_environment (hnew : p.dbHost = [] ∧ p.aliasName = []) (ha : n.parts.address = none) :
    ∃ p' d, realConstructor w p n.text = .ok p' ∧ Built w n p' d := by
  have hdb := n.dbase_of_none ha
  have hdev : n.parts.deviceName = n.parts.named.text :=
    Parts.deviceName_device fun hs => by rw [ha] at hs; cases hs
  have hlow : lower n.parts.deviceName =
      Front.bare.text ++ ((Parts.mk none n.parts.named).text ++ Modifier.absent.text) := by
    rw [hdev,n.lower_named]
    exact (List.append_nil _).symm
  obtain ⟨d,hd,hr⟩ := newDeviceProxy_reaches hfqdn (m := .absent) hlow ⟨n.proper.named,nofun,nofun⟩ ⟨n.plain.1,nofun⟩
  obtain ⟨hused,henv,hname,halias⟩ := parsed_environment (p := p) ha
  have hbehind : (if (p.parsed n).aliasName ≠ [] then d.deviceName else (p.parsed n).deviceName) = d.deviceName := by
    cases hx : n.parts.named.isAlias with
    | true =>
      refine if_pos ?_
      rw [halias,hx,if_pos rfl,hdev]
      have hproper := n.proper.named
      cases hn : n.parts.named with
      | device dom fam mem =>
        rw [hn] at hx
        cases hx
      | devAlias y =>
        rw [hn] at hproper
        exact hproper.1
    | false => rw [halias,hx,if_neg Bool.false_ne_true,hnew.2,if_neg (by simp),hname,hdev,hr.device hx]
  have hrun := realConstructor_env (parseAttributeName_parsed (w := w) hnew.1 n) (hused.trans hdb) henv (hname ▸ hd)
  rw [checked_done hconf] at hrun
  refine ⟨_,d,hrun,?_⟩
  exact {
    devProxy := rfl
    reaches := {
      dbaseUsed := hr.dbaseUsed.trans hdb.symm
      fromEnvVar := hr.fromEnvVar.trans (by rw [ha])
      isAlias := hr.isAlias
      device := hr.device
      behindAlias := hr.behindAlias
      environment := fun _ => hr.environment rfl
      database := fun a _ hs => absurd (ha.symm.trans hs) nofun
      server := fun a _ hs => absurd (ha.symm.trans hs) nofun }
    attrName := rfl
    deviceName := hbehind
    dbaseUsed := hused
    fromEnvVar := fun _ => henv.trans (by rw [ha]; rfl)
    database := fun _ => ⟨(hr.environment rfl).1.symm,(hr.environment rfl).2.symm⟩
    server := fun hb => absurd (hdb.symm.trans hb) (by decide) }

theorem built_database (hnew : p.dbHost = []) {a : Address} (ha : n.parts.address = some a)
    (hx : n.parts.named.isAlias = false) (hdb : n.modifier.dbase = true) :
    ∃ p' d, realConstructor w p n.text = .ok p' ∧ Built w n p' d := by
  have hdev : n.parts.deviceName = n.parts.named.text := Parts.deviceName_device fun _ => hx
  have hplaced : placedName a.host a.port n.parts.deviceName = n.parts.text := by
    rw [n.parts_mk ha]
    exact placedName_device hx
  have hlow : lower (placedName a.host a.port n.parts.deviceName) =
      Front.bare.text ++ (n.parts.text ++ Modifier.absent.text) := by
    rw [hplaced,n.lower_parts]
    exact (List.append_nil _).symm
  have hproper := n.proper
  rw [hdb] at hproper
  obtain ⟨d,hd,hr⟩ := newDeviceProxy_reaches hfqdn (m := .absent) hlow hproper n.plain
  obtain ⟨hused,henv,hname,hhost,hport,hattr⟩ := parsed_database (p := p) ha hdb
  have hrun := realConstructor_placed (parseAttributeName_parsed (w := w) hnew n) hused henv
  rw [hname,hhost,hport,hd,ok_bind,checked_done hconf] at hrun
  refine ⟨_,d,hrun,?_⟩
  exact {
    devProxy := rfl
    reaches := by rw [hdb]; exact hr
    attrName := hattr
    deviceName := hdev.trans (hr.device hx).symm
    dbaseUsed := hused.trans hdb.symm
    fromEnvVar := fun _ => henv.trans (by rw [ha]; rfl)
    database := fun _ => ⟨(hr.database a rfl ha).1.symm,(hr.database a rfl ha).2.symm⟩
    server := fun hb => absurd (hdb.symm.trans hb) (by decide) }

theorem built_server (hnew : p.dbHost = []) {a : Address} (ha : n.parts.address = some a)
    (hx : n.parts.named.isAlias = false) (hdb : n.modifier.dbase = false) :
    ∃ p' d, realConstructor w p n.text = .ok p' ∧ Built w n p' d := by
  have hdev : n.parts.deviceName = n.parts.named.text := Parts.deviceName_device fun _ => hx
  have htail : '/' ∉ lower n.attr ++ n.modifier.text := by
    rw [List.mem_append]
    rintro (hs | hs)
    · exact n.attr_clear (by decide) hs
    · rw [← n.lowerBehind] at hs
      exact n.behind_noSlash (mem_of_mem_lower (by decide) hs)
  have hcut : lower n.text = (n.front.text ++ n.parts.text) ++ '/' :: (lower n.attr ++ n.modifier.text) := by
    rw [n.lower_text,List.append_assoc]
  have hmod : lower ('#' :: dbaseNo) = Modifier.no.text := Modifier.no.lower_text
  have hlow : lower ((n.front.text ++ n.parts.text) ++ '#' :: dbaseNo) =
      n.front.text ++ (n.parts.text ++ Modifier.no.text) := by
    rw [lower_append,lower_append,n.front.lower_text,n.lower_parts,List.append_assoc,hmod]
  have hproper := n.proper
  rw [hdb] at hproper
  obtain ⟨d,hd,hr⟩ := newDeviceProxy_reaches hfqdn (m := .no) hlow hproper n.plain
  obtain ⟨hused,hname,hhost,hport,hattr⟩ := parsed_server (p := p) ha hdb
  have hrun := realConstructor_noDb (parseAttributeName_parsed (w := w) hnew n) hused hcut htail hd
  rw [checked_done hconf] at hrun
  refine ⟨_,d,hrun,?_⟩
  exact {
    devProxy := rfl
    reaches := by rw [hdb]; exact hr
    attrName := hattr
    deviceName := (hname.trans hdev).trans (hr.device hx).symm
    dbaseUsed := hused.trans hdb.symm
    fromEnvVar := fun hb => absurd (hdb.symm.trans hb) (by decide)
    database := fun hb => absurd (hdb.symm.trans hb) (by decide)
    server := fun _ => ⟨hhost.trans (hr.server a rfl ha).1.symm,hport.trans (hr.server a rfl ha).2.symm⟩ }

theorem realConstructor_built (hnew : p.dbHost = [] ∧ p.aliasName = [])
    (h : n.parts.address.isSome = true → n.parts.named.isAlias = false) :
    ∃ p' d, realConstructor w p n.text = .ok p' ∧ Built w n p' d := by
  cases ha : n.parts.address with
  | none => exact built_environment n hfqdn hconf hnew ha
  | some a =>
    have hx : n.parts.named.isAlias = false := h (by rw [ha]; rfl)
    cases hdb : n.modifier.dbase with
    | true => exact built_database n hfqdn hconf hnew.1 ha hx hdb
    | false => exact built_server n hfqdn hconf hnew.1 ha hx hdb

end Assumed

/-- An alias behind an address is refused: its place is put in front of it twice. -/
theorem realConstructor_refused (hnew : p.dbHost = []) (hsome : n.parts.address.isSome = true)
    (hx : n.parts.named.isAlias = true) : ∃ e, realConstructor w p n.text = .error e := by
  obtain ⟨a,ha⟩ := Option.isSome_iff_exists.mp hsome
  have hdb : n.modifier.dbase = true := by
    by_contra hn
    rw [(n.proper.noDbase (Bool.eq_false_iff.mpr hn)).2] at hx
    cases hx
  cases hn : n.parts.named with
  | device dom fam mem =>
    rw [hn] at hx
    cases hx
  | devAlias y =>
    have hparts : n.parts = ⟨some a,.devAlias y⟩ := by
      rw [← ha,← hn]
    have hlow := n.lower_parts
    have hy := n.lower_named
    have hproper := n.proper
    have hplain := n.plain
    rw [hn] at hy
    rw [hparts] at hlow hplain
    rw [hparts,hdb] at hproper
    have haddr : lower a.text = a.text := @lower_part (a.text ++ '/' :: y) [] a.text ('/' :: y) hlow
    obtain ⟨e,he⟩ := placedName_refused (w := w) hproper hplain haddr hy
    obtain ⟨hused,henv,hname,hhost,hport,-⟩ := parsed_database (p := p) ha hdb
    refine ⟨.name e,?_⟩
    rw [realConstructor_placed (parseAttributeName_parsed hnew n) hused henv,hname,hhost,hport,hparts,he]
    rfl

end Construct

section Copies
variable {w : World} {n : AttributeName} {p q fresh : AttributeProxy} {d : DeviceProxy}

/-- Two proxies of the same attribute, with device proxies of the same device. -/
structure Same (p q : AttributeProxy) : Prop where
  attrName : q.attrName = p.attrName
  deviceName : q.deviceName = p.deviceName
  dbaseUsed : q.dbaseUsed = p.dbaseUsed
  database : p.dbaseUsed = true → q.dbHost = p.dbHost ∧ q.dbPort = p.dbPort
  server : p.dbaseUsed = false → q.host = p.host ∧ q.port = p.port
  proxy : ∃ d e, p.devProxy = some d ∧ q.devProxy = some e ∧ SameDevice d e

/-- The devices behind aliases have names of three fields with plain words. -/
def RealNames (w : World) : Prop := ∀ host port x, ∃ dom fam mem, (Named.device dom fam mem).Proper ∧
  (Named.device dom fam mem).Plain ∧ lower (w.realName host port x) = (Named.device dom fam mem).text

theorem lower_lower (t : Text) : lower (lower t) = lower t := by
  unfold lower
  rw [List.map_map]
  exact List.map_congr_left fun c _ => toLower_twice c

/-- The device name that is stored is the one of a device, also behind an alias. -/
theorem Built.device_text (h : Built w n p d) (hreal : RealNames w) :
    ∃ x : Named, x.isAlias = false ∧ x.Proper ∧ x.Plain ∧ p.deviceName = x.text ∧ lower x.text = x.text := by
  cases hx : n.parts.named.isAlias with
  | false =>
    exact ⟨n.parts.named,hx,n.proper.named,n.plain.1,h.deviceName.trans (h.reaches.device hx),n.lower_named⟩
  | true =>
    cases hn : n.parts.named with
    | device dom fam mem =>
      rw [hn] at hx
      cases hx
    | devAlias y =>
      obtain ⟨dom,fam,mem,hp,hw,hlow⟩ := hreal d.dbHost d.dbPort y
      have hname := (h.reaches.behindAlias y hn).2
      refine ⟨.device dom fam mem,rfl,hp,hw,?_,?_⟩
      · rw [h.deviceName,hname,hlow]
      · rw [← hlow,lower_lower]

theorem copy_loses_name (hfresh : fresh.attrName = []) (hq : copyConstructor w fresh p = .ok q) : q.attrName = [] := by
  have hconnect (r : AttributeProxy) (hr : (fresh.copied p).connectCopy w = .ok r) : r.attrName = [] := by
    have hnew (name : Text) (hc : (fresh.copied p).connect w name = .ok r) : r.attrName = [] := by
      obtain ⟨e,-,he⟩ := except_bind_ok.mp hc
      cases he
      exact hfresh
    unfold AttributeProxy.connectCopy at hr
    split at hr
    · split at hr
      · exact hnew _ hr
      · exact hnew _ hr
    · cases hr
      exact hfresh
  obtain ⟨r,hr,rfl⟩ := except_map_ok.mp hq
  exact hconnect r hr

/-- What an assignment makes of a proxy that uses a database. -/
theorem assign_database (h : Built w n p d) (hdb : n.modifier.dbase = true) {e : DeviceProxy}
    (hnew : newDeviceProxy w (if n.parts.address.isNone = true then p.deviceName
      else placedName p.dbHost p.dbPort p.deviceName) = .ok e) (hsame : SameDevice d e) (lhs : AttributeProxy) :
    ∃ q, assign w lhs p = .ok q ∧ Same p q := by
  have hused : p.dbaseUsed = true := h.dbaseUsed.trans hdb
  rw [← h.fromEnvVar hdb] at hnew
  have hconnect (r : AttributeProxy) (h1 : r.dbaseUsed = p.dbaseUsed) (h2 : r.fromEnvVar = p.fromEnvVar)
      (h3 : r.deviceName = p.deviceName) (h4 : r.dbHost = p.dbHost) (h5 : r.dbPort = p.dbPort) :
      r.connectAssigned w = .ok { r with devProxy := some e, dbAttr := some r.stored } := by
    unfold AttributeProxy.connectAssigned AttributeProxy.connect
    rw [if_pos (h1.trans hused),h2,h3,h4,h5,hnew,ok_bind]
  unfold assign
  rw [hconnect]
  · exact ⟨_,rfl,rfl,rfl,rfl,fun _ => ⟨rfl,rfl⟩,fun _ => ⟨rfl,rfl⟩,d,e,h.devProxy,rfl,hsame⟩
  all_goals rfl

/-- Without a database the device proxy stays the one of the proxy that is assigned to. -/
theorem assign_server (hused : p.dbaseUsed = false) (lhs : AttributeProxy) :
    ∃ q, assign w lhs p = .ok q ∧ q.devProxy = lhs.devProxy ∧ q.attrName = p.attrName ∧ q.deviceName = p.deviceName ∧
      q.dbaseUsed = p.dbaseUsed ∧ (q.dbHost = p.dbHost ∧ q.dbPort = p.dbPort) ∧ q.host = p.host ∧ q.port = p.port := by
  have hkeep (r : AttributeProxy) (hr : r.dbaseUsed = p.dbaseUsed) : r.connectAssigned w = .ok r := by
    unfold AttributeProxy.connectAssigned
    rw [if_neg (by rw [hr,hused]; decide)]
  unfold assign
  rw [hkeep]
  · exact ⟨_,rfl,rfl,rfl,rfl,rfl,⟨rfl,rfl⟩,rfl,rfl⟩
  · rfl

theorem assign_same_iff (hfqdn : ∀ h, w.getFqdn h = h) (hreal : RealNames w) (h : Built w n p d)
    (hx : n.parts.address.isSome = true → n.parts.named.isAlias = false) (lhs : AttributeProxy) :
    (∃ q, assign w lhs p = .ok q ∧ Same p q) ↔
      n.modifier.dbase = true ∨ ∃ e, lhs.devProxy = some e ∧ SameDevice d e := by
  cases hdb : n.modifier.dbase with
  | true =>
    refine iff_of_true ?_ (.inl rfl)
    have hdused := h.reaches.dbaseUsed.trans hdb
    cases ha : n.parts.address with
    | none =>
      obtain ⟨x,hxa,hproper,hplain,hname,hlow⟩ := h.device_text hreal
      have hlowname : lower p.deviceName = Front.bare.text ++ ((Parts.mk none x).text ++ Modifier.absent.text) := by
        rw [hname,hlow]
        exact (List.append_nil _).symm
      obtain ⟨e,he,hr⟩ := newDeviceProxy_reaches hfqdn (m := .absent) hlowname ⟨hproper,nofun,nofun⟩ ⟨hplain,nofun⟩
      obtain ⟨henv1,henv2⟩ := hr.environment rfl
      obtain ⟨hd1,hd2⟩ := h.reaches.environment ha
      refine assign_database h hdb (by rw [ha]; exact he) ⟨hr.dbaseUsed.trans hdused.symm,?_,fun _ => ?_,fun hf => ?_⟩ lhs
      · rw [hr.device hxa,← h.deviceName,hname]
      · exact ⟨henv1.trans hd1.symm,henv2.trans hd2.symm⟩
      · rw [hdused] at hf
        cases hf
    | some a =>
      have hxa : n.parts.named.isAlias = false := hx (by rw [ha]; rfl)
      obtain ⟨hhost,hport⟩ := h.reaches.database a hdb ha
      have hplaced : placedName p.dbHost p.dbPort p.deviceName = n.parts.text := by
        rw [(h.database hdb).1,(h.database hdb).2,hhost,hport,h.deviceName,h.reaches.device hxa,n.parts_mk ha]
        have hdev := @Parts.deviceName_device ⟨some a,n.parts.named⟩ fun _ => hxa
        rw [← hdev]
        exact placedName_device hxa
      have hlowname : lower (placedName p.dbHost p.dbPort p.deviceName) =
          Front.bare.text ++ (n.parts.text ++ Modifier.absent.text) := by
        rw [hplaced,n.lower_parts]
        exact (List.append_nil _).symm
      have hproper := n.proper
      rw [hdb] at hproper
      obtain ⟨e,he,hr⟩ := newDeviceProxy_reaches hfqdn (m := .absent) hlowname hproper n.plain
      obtain ⟨he1,he2⟩ := hr.database a rfl ha
      refine assign_database h hdb (by rw [ha]; exact he) ⟨hr.dbaseUsed.trans hdused.symm,?_,fun _ => ?_,fun hf => ?_⟩ lhs
      · rw [hr.device hxa,h.reaches.device hxa]
      · exact ⟨he1.trans hhost.symm,he2.trans hport.symm⟩
      · rw [hdused] at hf
        cases hf
  | false =>
    obtain ⟨q,hq,hproxy,hattr,hname,hdused,hdatabase,hserver⟩ := assign_server (w := w) (h.dbaseUsed.trans hdb) lhs
    constructor
    · rintro ⟨q',hq',hsame⟩
      rw [hq] at hq'
      cases hq'
      obtain ⟨d',e,hd',he,hde⟩ := hsame.proxy
      rw [h.devProxy] at hd'
      cases hd'
      exact .inr ⟨e,hproxy.symm.trans he,hde⟩
    · rintro (hf | ⟨e,he,hde⟩)
      · cases hf
      · exact ⟨q,hq,hattr,hname,hdused,fun _ => hdatabase,fun _ => hserver,d,e,h.devProxy,hproxy.trans he,hde⟩

theorem ctorFromDp_same (hconf : ∀ dev att, w.attributeConfig dev att = .done) (h : Built w n p d) (fresh : AttributeProxy) :
    ∃ q, ctorFromDp w fresh d p.attrName = .ok q ∧ Same p q := by
  unfold ctorFromDp
  rw [checked_done hconf]
  refine ⟨_,rfl,rfl,h.deviceName.symm,h.reaches.dbaseUsed.trans h.dbaseUsed.symm,fun hb => ?_,fun hb => ?_,d,d,h.devProxy,
    rfl,⟨rfl,rfl,fun _ => ⟨rfl,rfl⟩,fun _ => ⟨rfl,rfl⟩⟩⟩
  · obtain ⟨h1,h2⟩ := h.database (h.dbaseUsed.symm.trans hb)
    exact ⟨h1.symm,h2.symm⟩
  · obtain ⟨h1,h2⟩ := h.server (h.dbaseUsed.symm.trans hb)
    exact ⟨h1.symm,h2.symm⟩

/-- The constructor leads to the device, and the attribute keeps its name. -/
def Constructed (w : World) (n : AttributeName) (p : AttributeProxy) : Prop :=
  p.attrName = n.attr ∧ ∃ d, p.devProxy = some d ∧ Reaches w n.parts n.modifier.dbase d

/-- A name leads to its device, and so do all copies. -/
def LeadsToDevice (w : World) (n : AttributeName) (new fresh : AttributeProxy) : Prop :=
  ∃ p, realConstructor w new n.text = .ok p ∧ Constructed w n p ∧
    (∃ q, copyConstructor w fresh p = .ok q ∧ Same p q) ∧ (∀ lhs, ∃ q, assign w lhs p = .ok q ∧ Same p q) ∧
    ∀ d, p.devProxy = some d → ∃ q, ctorFromDp w fresh d p.attrName = .ok q ∧ Same p q

theorem not_leads (hfresh : fresh.attrName = []) (new : AttributeProxy) : ¬ LeadsToDevice w n new fresh := by
  rintro ⟨p,-,⟨hattr,-⟩,⟨q,hq,hsame⟩,-⟩
  have hlost := hsame.attrName.symm.trans (copy_loses_name hfresh hq)
  exact n.attrWord.1 (hattr.symm.trans hlost)

/-- No name leads to its device with all copies, for the copy constructor drops the name of the attribute. The constructor
refuses an alias behind an address and no other name; an assignment is right with a database, and without one only when
the device proxy already was the right one; and a proxy from a device proxy is right. -/
theorem attribute_name_leads (hfqdn : ∀ h, w.getFqdn h = h) (hconf : ∀ dev att, w.attributeConfig dev att = .done)
    (hreal : RealNames w) (n : AttributeName) (memory memory' : Int × Int × Bool × Bool) :
    let new := AttributeProxy.initialised memory.1 memory.2.1 memory.2.2.1 memory.2.2.2 (some n.text)
    let fresh := AttributeProxy.initialised memory'.1 memory'.2.1 memory'.2.2.1 memory'.2.2.2 none
    ¬ LeadsToDevice w n new fresh ∧
      ((∃ p, realConstructor w new n.text = .ok p ∧ Constructed w n p) ↔
        ¬ (n.parts.address.isSome = true ∧ n.parts.named.isAlias = true)) ∧
      ∀ p d, realConstructor w new n.text = .ok p → p.devProxy = some d →
        (∀ q, copyConstructor w fresh p = .ok q → q.attrName = []) ∧
        (∀ lhs, (∃ q, assign w lhs p = .ok q ∧ Same p q) ↔
          n.modifier.dbase = true ∨ ∃ e, lhs.devProxy = some e ∧ SameDevice d e) ∧
        ∃ q, ctorFromDp w fresh d p.attrName = .ok q ∧ Same p q := by
  intro new fresh
  have hbuilt (h : ¬ (n.parts.address.isSome = true ∧ n.parts.named.isAlias = true)) :
      ∃ p d, realConstructor w new n.text = .ok p ∧ Built w n p d :=
    realConstructor_built n hfqdn hconf ⟨rfl,rfl⟩ fun hs => Bool.eq_false_iff.mpr fun hx => h ⟨hs,hx⟩
  have hnamed (p : AttributeProxy) (hp : realConstructor w new n.text = .ok p) :
      ¬ (n.parts.address.isSome = true ∧ n.parts.named.isAlias = true) := by
    rintro ⟨hs,hx⟩
    obtain ⟨e,he⟩ := realConstructor_refused (w := w) (p := new) n rfl hs hx
    rw [he] at hp
    cases hp
  refine ⟨not_leads rfl new,⟨fun hp => ?_,fun h => ?_⟩,fun p d hp hd => ?_⟩
  · obtain ⟨p,hp,-⟩ := hp
    exact hnamed p hp
  · obtain ⟨p,d,hp,hb⟩ := hbuilt h
    exact ⟨p,hp,hb.attrName,d,hb.devProxy,hb.reaches⟩
  · obtain ⟨p',d',hp',hb⟩ := hbuilt (hnamed p hp)
    rw [hp] at hp'
    cases hp'
    rw [hb.devProxy] at hd
    cases hd
    have hx (hs : n.parts.address.isSome = true) : n.parts.named.isAlias = false :=
      Bool.eq_false_iff.mpr fun hx => hnamed p hp ⟨hs,hx⟩
    exact ⟨fun q hq => copy_loses_name rfl hq,assign_same_iff hfqdn hreal hb hx,ctorFromDp_same hconf hb fresh⟩

theorem words {t : Text} (h : t.all (fun c => decide (wordChar c)) = true) : ∀ c ∈ t, wordChar c :=
  fun c hc => of_decide_eq_true (List.all_eq_true.mp h c hc)

/-- Devices are reached, and each alias is one of the same motor. -/
def lab : World where
  envHost := "db".toList
  envPort := "10000".toList
  envPortNum := 10000
  inServer := false
  getFqdn := id
  realName _ _ _ := "sys/motor/1".toList
  attributeAlias _ _ := .error []
  attributeConfig _ _ := .done
  memory := (0,0,false,false)

theorem motor_plain : (Named.device "sys".toList "motor".toList "1".toList).Plain :=
  ⟨words (by decide),words (by decide),words (by decide)⟩

theorem lab_realNames : RealNames lab :=
  fun _ _ _ => ⟨"sys".toList,"motor".toList,"1".toList,⟨by decide,by decide,by decide⟩,motor_plain,
    show lower "sys/motor/1".toList = _ by decide⟩

def position : AttributeName where
  front := .bare
  parts := ⟨none,.device "sys".toList "motor".toList "1".toList⟩
  modifier := .absent
  before := "sys/motor/1".toList
  attr := "Position".toList
  behind := []
  lowerBefore := by decide
  lowerBehind := rfl
  proper := ⟨⟨by decide,by decide,by decide⟩,nofun,nofun⟩
  plain := ⟨motor_plain,nofun⟩
  attrWord := ⟨by decide,words (by decide)⟩

theorem position_constructed : ∃ p, realConstructor lab (.initialised 0 0 false false (some position.text)) position.text =
    .ok p ∧ Constructed lab position p :=
  (attribute_name_leads (fun _ => rfl) (fun _ _ => rfl) lab_realNames position (0,0,false,false)
    (0,0,false,false)).2.1.mpr (by decide)

/-- The copy of a proxy has no attribute name. -/
theorem position_copy_nameless : ¬ LeadsToDevice lab position (.initialised 0 0 false false (some position.text))
    (.initialised 0 0 false false none) :=
  not_leads rfl _

end Copies
end CppTango.Client.Names
