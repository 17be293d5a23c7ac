import CppTango.Client.DeviceNameForm
import CppTango.Lib.Patterns

namespace CppTango.Client.Names
open CppTango.Device (thrown)
open CppTango.Lib

/-- What stands in front of a name. -/
inductive Front
  | bare
  | slashes
  | tango
deriving DecidableEq, Repr

/-- The database modifier behind a name. -/
inductive Modifier
  | absent
  | yes
  | no
deriving DecidableEq, Repr

def Front.text : Front → Text
  | .bare => []
  | .slashes => ['/','/']
  | .tango => tangoProtocol ++ protSep

def Modifier.text : Modifier → Text
  | .absent => []
  | .yes => '#' :: dbaseYes
  | .no => '#' :: dbaseNo

def Modifier.dbase : Modifier → Bool
  | .no => false
  | _ => true

/-- When the parser finds this front. -/
def Front.Read (low : Text) : Front → Prop
  | .tango => True
  | .slashes => ¬ protSep <:+: low ∧ 2 < low.length
  | .bare => ¬ protSep <:+: low ∧ ¬ (Front.slashes.text <+: low ∧ 2 < low.length)

/-- How the parser cuts what stands around a name. -/
structure Framed (low : Text) (front : Front) (body : Text) (modifier : Modifier) : Prop where
  given : low ≠ []
  text : low = front.text ++ (body ++ modifier.text)
  read : front.Read low
  clear : '#' ∉ body

section Frame
variable {origin : String} {low rest name body : Text} {front : Front}

theorem slashes_start (low : Text) : (low[0]? = some '/' ∧ low[1]? = some '/') ↔ Front.slashes.text <+: low := by
  rw [Front.text]
  match low with
  | [] => simp
  | [a] => simp [List.cons_prefix_cons]
  | a::b::t => simp [List.cons_prefix_cons,eq_comm]

theorem nameWoProt_read (hr : front.Read low) (ht : low = front.text ++ rest) : nameWoProt origin low = .ok rest := by
  unfold nameWoProt
  cases front with
  | tango =>
    have hfind : find protSep low = some tangoProtocol.length := by
      rw [ht]
      simp [find,protSep,Front.text,tangoProtocol,List.cons_prefix_cons]
    have hfront : substr low 0 (some tangoProtocol.length) = .ok tangoProtocol := by
      rw [ht]
      rw [Front.text,List.append_assoc]
      exact substr_front tangoProtocol (protSep ++ rest)
    rw [hfind]
    dsimp only
    rw [hfront]
    change substr low (tangoProtocol.length + 3) none = _
    rw [ht]
    exact substr_behind Front.tango.text rest
  | slashes =>
    obtain ⟨hp,hlen⟩ := hr
    rw [find_eq_none.mpr hp]
    dsimp only
    rw [if_pos hlen,if_pos ((slashes_start low).mpr (ht ▸ List.prefix_append _ _)),ht]
    exact substr_behind Front.slashes.text rest
  | bare =>
    obtain ⟨hp,hs⟩ := hr
    have hlow : low = rest := ht
    rw [find_eq_none.mpr hp]
    dsimp only
    by_cases hlen : low.length > 2
    · rw [if_pos hlen,if_neg (fun hc => hs ⟨(slashes_start low).mp hc,hlen⟩),hlow]
    · rw [if_neg hlen,hlow]

theorem nameWoProt_cases (origin : String) (low : Text) : (∃ e, nameWoProt origin low = .error (.wrongName e)) ∨
    ∃ (front : Front) (rest : Text), front.Read low ∧ low = front.text ++ rest := by
  cases hfind : find protSep low with
  | none =>
    have hp := find_eq_none.mp hfind
    by_cases hs : Front.slashes.text <+: low ∧ 2 < low.length
    · obtain ⟨⟨rest,hrest⟩,hlen⟩ := hs
      exact .inr ⟨.slashes,rest,⟨hp,hlen⟩,hrest.symm⟩
    · exact .inr ⟨.bare,low,⟨hp,hs⟩,rfl⟩
  | some pos =>
    obtain ⟨e,t,hlow,rfl⟩ := find_cut hfind
    by_cases he : e = tangoProtocol
    · refine .inr ⟨.tango,t,trivial,?_⟩
      rw [hlow,he]
      rfl
    · refine .inl ⟨thrown "API_UnsupportedProtocol"
        (String.ofList e ++ " protocol is an unsupported protocol") origin,?_⟩
      unfold nameWoProt
      rw [hfind]
      dsimp only
      rw [hlow,List.append_assoc,substr_front]
      exact if_neg he

theorem nameWoDbMod_read (hb : '#' ∉ body) (m : Modifier) :
    nameWoDbMod origin (body ++ m.text) = .ok (body,m.dbase) := by
  have hkept (t : Text) : substr (body ++ '#' :: t) 0
      (some ((body ++ '#' :: t).length - ((body ++ '#' :: t).length - body.length))) = .ok body := by
    have hlen : (body ++ '#' :: t).length - ((body ++ '#' :: t).length - body.length) = body.length := by
      rw [List.length_append]
      omega
    rw [hlen]
    exact substr_front ..
  unfold nameWoDbMod
  cases m with
  | absent =>
    rw [Modifier.text,List.append_nil,List.idxOf?_eq_none_iff.mpr hb]
    rfl
  | yes =>
    rw [Modifier.text,idxOf?_append_sep hb]
    dsimp only
    rw [substr_after,hkept]
    rfl
  | no =>
    rw [Modifier.text,idxOf?_append_sep hb]
    dsimp only
    rw [substr_after,hkept]
    rfl

theorem nameWoDbMod_cases (origin : String) (name : Text) :
    (∃ e, nameWoDbMod origin name = .error (.wrongName e)) ∨ ∃ body m, '#' ∉ body ∧ name = body ++ Modifier.text m := by
  cases hi : name.idxOf? '#' with
  | none => exact .inr ⟨name,.absent,not_mem_of_idxOf? hi,(List.append_nil name).symm⟩
  | some pos =>
    obtain ⟨body,t,hb,rfl,rfl⟩ := idxOf?_cut hi
    by_cases hy : t = dbaseYes
    · exact .inr ⟨body,.yes,hb,by rw [hy]; rfl⟩
    · by_cases hn : t = dbaseNo
      · exact .inr ⟨body,.no,hb,by rw [hn]; rfl⟩
      · refine .inl ⟨thrown "API_UnsupportedDBaseModifier"
          (String.ofList t ++ " modifier is an unsupported db modifier") origin,?_⟩
        unfold nameWoDbMod
        rw [hi]
        dsimp only
        rw [substr_after]
        change (if t = dbaseYes then _ else if t = dbaseNo then _ else _) = _
        rw [if_neg hy]
        exact if_neg hn

end Frame

/-- A name with all that stands around it. -/
structure Written where
  front : Front
  parts : Parts
  modifier : Modifier
deriving DecidableEq, Repr

/-- The parser reads the text as this name. -/
structure Written.Taken (w : Written) (low : Text) : Prop where
  framed : Framed low w.front w.parts.text w.modifier
  loose : w.parts.Loose w.modifier.dbase

/-- Without a database, what the parser reads has a slash before its first colon. -/
def SlashFirst (low : Text) : Prop :=
  ∃ front body f dom fam mem, Framed low front body .no ∧ LateColon body f dom fam mem

def lower (s : Text) : Text := s.map Char.toLower

section Parses
variable {s body : Text} {front : Front} {m : Modifier} {getFqdn : Text → Text}

theorem parseName_framed (d : DeviceProxy) (h : Framed (lower s) front body m) :
    parseName s d getFqdn =
      if m.dbase = true then parseDbase s { d with dbaseUsed := m.dbase } getFqdn body
      else parseNoDbase s { d with dbaseUsed := m.dbase } body := by
  have hs : s ≠ [] := by
    rintro rfl
    exact h.given rfl
  unfold parseName
  rw [if_neg hs]
  change (nameWoProt _ (lower s) >>= fun woProt => nameWoDbMod _ woProt >>= fun r => _) = _
  rw [nameWoProt_read h.read h.text]
  change (nameWoDbMod _ (body ++ m.text) >>= fun r => _) = _
  rw [nameWoDbMod_read h.clear]
  rfl

theorem parseName_frame (s : Text) (d : DeviceProxy) (getFqdn : Text → Text) :
    (∃ e, parseName s d getFqdn = .error (.wrongName e)) ∨ ∃ front body m, Framed (lower s) front body m := by
  by_cases hs : s = []
  · exact .inl ⟨_,if_pos hs⟩
  · have hstep : parseName s d getFqdn = nameWoProt "DeviceProxy::parse_name" (lower s) >>= fun woProt =>
        nameWoDbMod "DeviceProxy::parse_name" woProt >>= fun r =>
          if r.2 = true then parseDbase s { d with dbaseUsed := r.2 } getFqdn r.1
          else parseNoDbase s { d with dbaseUsed := r.2 } r.1 := if_neg hs
    rcases nameWoProt_cases "DeviceProxy::parse_name" (lower s) with ⟨e,he⟩ | ⟨front,rest,hread,hrest⟩
    · exact .inl ⟨e,by rw [hstep,he]; rfl⟩
    · rcases nameWoDbMod_cases "DeviceProxy::parse_name" rest with ⟨e,he⟩ | ⟨body,m,hb,rfl⟩
      · refine .inl ⟨e,?_⟩
        rw [hstep,nameWoProt_read hread hrest]
        change (nameWoDbMod _ rest >>= fun r => _) = _
        rw [he]
        rfl
      · exact .inr ⟨front,body,m,fun hnil => hs (List.map_eq_nil_iff.mp hnil),hrest,hread,hb⟩

/-- A name that is read is stored by its parts. -/
theorem parseName_taken {w : Written} (d : DeviceProxy) (h : w.Taken (lower s)) :
    parseName s d getFqdn = .ok (w.parts.stored { d with dbaseUsed := w.modifier.dbase } getFqdn) := by
  obtain ⟨front,parts,m⟩ := w
  obtain ⟨hframed,hloose⟩ := h
  dsimp only at hframed hloose ⊢
  rw [parseName_framed d hframed]
  cases hd : m.dbase with
  | true =>
    rw [if_pos rfl]
    rw [hd] at hloose
    exact parseDbase_stored hloose rfl
  | false =>
    rw [if_neg Bool.false_ne_true]
    rw [hd] at hloose
    obtain ⟨address,x⟩ := parts
    cases address with
    | none =>
      obtain ⟨-,-,ht,-⟩ := hloose
      cases ht
    | some a =>
      cases x with
      | device dom fam mem => exact parseNoDbase_stored hloose rfl
      | devAlias n => cases hloose.2.1 rfl

theorem parseName_slashFirst (d : DeviceProxy) (h : SlashFirst (lower s)) :
    ∃ d', parseName s d getFqdn = .ok d' ∧ '/' ∈ d'.host ∧ d'.dbaseUsed = false := by
  obtain ⟨front,body,f,dom,fam,mem,hframed,hlate⟩ := h
  rw [parseName_framed d hframed]
  exact parseNoDbase_late hlate

/-- All the ways the parser ends. -/
theorem parseName_cases (s : Text) (d : DeviceProxy) (getFqdn : Text → Text) :
    (∃ e, parseName s d getFqdn = .error (.wrongName e)) ∨
      (∃ w : Written, w.Taken (lower s)) ∨ SlashFirst (lower s) := by
  rcases parseName_frame s d getFqdn with he | ⟨front,body,m,hframed⟩
  · exact .inl he
  · rw [parseName_framed d hframed]
    cases hd : m.dbase with
    | true =>
      rw [if_pos rfl]
      rcases parseDbase_cases s { d with dbaseUsed := true } getFqdn body with he | ⟨p,hl,rfl⟩
      · exact .inl he
      · exact .inr (.inl ⟨⟨front,p,m⟩,hframed,hd ▸ hl⟩)
    | false =>
      rw [if_neg Bool.false_ne_true]
      rcases parseNoDbase_cases s { d with dbaseUsed := false } body with
        he | ⟨a,dom,fam,mem,hl,rfl⟩ | ⟨f,dom,fam,mem,hl⟩
      · exact .inl he
      · exact .inr (.inl ⟨⟨front,_,m⟩,hframed,hd ▸ hl⟩)
      · refine .inr (.inr ⟨front,body,f,dom,fam,mem,?_,hl⟩)
        cases m with
        | no => exact hframed
        | absent => cases hd
        | yes => cases hd

end Parses

section Properly

/-- A name as its syntax has it. -/
def Named.Proper : Named → Prop
  | .device a b m => (a ≠ [] ∧ '/' ∉ a) ∧ (b ≠ [] ∧ '/' ∉ b) ∧ (m ≠ [] ∧ '/' ∉ m)
  | .devAlias x => x ≠ [] ∧ '/' ∉ x ∧ ':' ∉ x ∧ ¬ resSep <:+: x

structure Address.Proper (a : Address) : Prop where
  host : a.host ≠ [] ∧ '/' ∉ a.host ∧ ':' ∉ a.host
  port : a.port ≠ [] ∧ ∀ c ∈ a.port, c.isDigit = true

structure Parts.Proper (p : Parts) (dbase : Bool) : Prop where
  named : p.named.Proper
  address : ∀ a, p.address = some a → a.Proper
  noDbase : dbase = false → p.address.isSome = true ∧ p.named.isAlias = false

/-- The fields that hold the parts of a name, with the number a port is stored as. -/
structure Parts.Kept (number : Text → Int) (p : Parts) (dbase : Bool) (d : DeviceProxy) : Prop where
  deviceName : d.deviceName = p.named.text
  isAlias : d.isAlias = p.named.isAlias
  dbaseUsed : d.dbaseUsed = dbase
  fromEnvVar : d.fromEnvVar = p.address.isNone
  database : ∀ a, dbase = true → p.address = some a →
    d.dbHost = a.host ∧ d.dbPort = a.port ∧ d.dbPortNum = number a.port
  server : ∀ a, dbase = false → p.address = some a → d.host = a.host ∧ d.port = a.port ∧ d.portNum = number a.port

def portValue (port : Text) : Int := Nat.ofDigitChars 10 port 0

def Written.text (w : Written) : Text := w.front.text ++ (w.parts.text ++ w.modifier.text)

def wordChar (c : Char) : Prop := c.isAlphanum = true ∨ c = '-' ∨ c = '_' ∨ c = '.'

instance : DecidablePred wordChar := fun c =>
  inferInstanceAs (Decidable (c.isAlphanum = true ∨ c = '-' ∨ c = '_' ∨ c = '.'))

def Named.Plain : Named → Prop
  | .device a b m => (∀ c ∈ a, wordChar c) ∧ (∀ c ∈ b, wordChar c) ∧ ∀ c ∈ m, wordChar c
  | .devAlias x => ∀ c ∈ x, wordChar c

def Parts.Plain (p : Parts) : Prop := p.named.Plain ∧ ∀ a, p.address = some a → ∀ c ∈ a.host, wordChar c

/-- The parser ends in its two ways, what it accepts is a name of the syntax, stored as it was written, and the
names with plain words are accepted. -/
structure ParsedAsWritten (getFqdn : Text → Text) (s : Text) (d : DeviceProxy) : Prop where
  ends : parseName s d getFqdn ≠ .error .outOfRange
  stored : ∀ d', parseName s d getFqdn = .ok d' → ∃ w : Written, w.text = lower s ∧
    w.parts.Proper w.modifier.dbase ∧ w.parts.Kept portValue w.modifier.dbase d'
  accepted : ∀ w : Written, w.text = lower s → w.parts.Proper w.modifier.dbase → w.parts.Plain →
    ∃ d', parseName s d getFqdn = .ok d'

/-- What the parser does not look at: an empty member, an empty domain behind an address, an empty alias, an empty
host, and what the port is. -/
def Parts.Unseen (p : Parts) : Prop :=
  (match p.named with
    | .device a _ m => a = [] ∨ m = []
    | .devAlias x => x = []) ∨
  ∃ a, p.address = some a ∧ (a.host = [] ∨ a.port = [] ∨ (∃ c ∈ a.port, c.isDigit = false) ∨
    2147483647 < portValue a.port)

/-- The names that are accepted though they are no names, or stored as others. -/
def Slip (low : Text) : Prop := (∃ w : Written, w.Taken low ∧ w.parts.Unseen) ∨ SlashFirst low

theorem Named.Proper.loose {x : Named} (h : x.Proper) : x.Loose := by
  cases x with
  | device a b m => exact ⟨h.1.2,h.2.1.2,h.2.2.2,h.2.1.1⟩
  | devAlias n => exact h.2

theorem Named.text_inj {x y : Named} (hx : x.Loose) (hy : y.Loose) (h : x.text = y.text) : x = y := by
  cases x with
  | device a b m =>
    cases y with
    | device a' b' m' =>
      obtain ⟨rfl,ht⟩ := split_unique hx.1 hy.1 h
      obtain ⟨rfl,rfl⟩ := split_unique hx.2.1 hy.2.1 ht
      rfl
    | devAlias n' =>
      have hn : n' = a ++ '/' :: (b ++ '/' :: m) := h.symm
      exact absurd (by rw [hn]; simp) hy.1
  | devAlias n =>
    cases y with
    | device a' b' m' =>
      have hn : n = a' ++ '/' :: (b' ++ '/' :: m') := h
      exact absurd (by rw [hn]; simp) hx.1
    | devAlias n' =>
      have hn : n = n' := h
      rw [hn]

/-- The fields hold one name only. -/
theorem Parts.Kept.unique {number number' : Text → Int} {p p' : Parts} {b b' : Bool} {d : DeviceProxy}
    (h : p.Kept number b d) (h' : p'.Kept number' b' d) (hp : p.named.Loose) (hp' : p'.named.Loose)
    (hb : b = false → p.address.isSome = true) :
    b = b' ∧ p = p' ∧ ∀ a, p.address = some a → number a.port = number' a.port := by
  obtain rfl : b = b' := h.dbaseUsed.symm.trans h'.dbaseUsed
  have hn := Named.text_inj hp hp' (h.deviceName.symm.trans h'.deviceName)
  have haddr : p.address.isNone = p'.address.isNone := h.fromEnvVar.symm.trans h'.fromEnvVar
  obtain ⟨address,x⟩ := p
  obtain ⟨address',x'⟩ := p'
  dsimp only at hn haddr hb
  subst hn
  cases address with
  | none =>
    cases address' with
    | none => exact ⟨rfl,rfl,nofun⟩
    | some a' => cases haddr
  | some a =>
    cases address' with
    | none => cases haddr
    | some a' =>
      have hall : a.host = a'.host ∧ a.port = a'.port ∧ number a.port = number' a'.port := by
        cases b with
        | true =>
          obtain ⟨h1,h2,h3⟩ := h.database a rfl rfl
          obtain ⟨h1',h2',h3'⟩ := h'.database a' rfl rfl
          exact ⟨h1.symm.trans h1',h2.symm.trans h2',h3.symm.trans h3'⟩
        | false =>
          obtain ⟨h1,h2,h3⟩ := h.server a rfl rfl
          obtain ⟨h1',h2',h3'⟩ := h'.server a' rfl rfl
          exact ⟨h1.symm.trans h1',h2.symm.trans h2',h3.symm.trans h3'⟩
      obtain ⟨host,port⟩ := a
      obtain ⟨host',port'⟩ := a'
      obtain ⟨h1,h2,h3⟩ := hall
      dsimp only at h1 h2 h3
      subst h1 h2
      exact ⟨rfl,rfl,by rintro _ ⟨⟩; exact h3⟩

variable {getFqdn : Text → Text}

theorem DeviceProxy.dbHosted_kept (hfqdn : ∀ h, getFqdn h = h) (d : DeviceProxy) (host port : Text) :
    (d.dbHosted getFqdn host port).dbHost = host ∧ (d.dbHosted getFqdn host port).dbPort = port ∧
      (d.dbHosted getFqdn host port).dbPortNum = streamInt port := by
  unfold DeviceProxy.dbHosted
  rw [hfqdn,ite_self]
  exact ⟨rfl,rfl,rfl⟩

theorem DeviceProxy.dbHosted_marks (d : DeviceProxy) (getFqdn : Text → Text) (host port : Text) :
    (d.dbHosted getFqdn host port).isAlias = d.isAlias ∧
      (d.dbHosted getFqdn host port).dbaseUsed = d.dbaseUsed := by
  unfold DeviceProxy.dbHosted
  dsimp only
  split
  · exact ⟨rfl,rfl⟩
  · exact ⟨rfl,rfl⟩

theorem Parts.stored_kept (hfqdn : ∀ h, getFqdn h = h) {d : DeviceProxy} (hd : d.isAlias = false) (p : Parts) :
    p.Kept streamInt d.dbaseUsed (p.stored d getFqdn) := by
  obtain ⟨address,x⟩ := p
  cases address with
  | none =>
    cases x with
    | device a b m => exact ⟨rfl,hd,rfl,rfl,nofun,nofun⟩
    | devAlias n => exact ⟨rfl,rfl,rfl,rfl,nofun,nofun⟩
  | some a =>
    unfold Parts.stored
    dsimp only
    by_cases hu : d.dbaseUsed = true
    · obtain ⟨halias,hused⟩ := d.dbHosted_marks getFqdn a.host a.port
      rw [if_pos hu]
      cases x with
      | device dom fam mem =>
        refine ⟨rfl,halias.trans hd,hused,rfl,?_,fun _ hf => absurd (hu.symm.trans hf) (by decide)⟩
        rintro _ - ⟨⟩
        exact d.dbHosted_kept hfqdn a.host a.port
      | devAlias n =>
        refine ⟨rfl,rfl,hused,rfl,?_,fun _ hf => absurd (hu.symm.trans hf) (by decide)⟩
        rintro _ - ⟨⟩
        exact d.dbHosted_kept hfqdn a.host a.port
    · rw [if_neg hu]
      cases x with
      | device dom fam mem =>
        refine ⟨rfl,hd,rfl,rfl,fun _ hf => absurd hf hu,?_⟩
        rintro _ - ⟨⟩
        exact ⟨rfl,rfl,rfl⟩
      | devAlias n =>
        refine ⟨rfl,rfl,rfl,rfl,fun _ hf => absurd hf hu,?_⟩
        rintro _ - ⟨⟩
        exact ⟨rfl,rfl,rfl⟩

/-- Where the numbers agree, the one is as well stored as the other. -/
theorem Parts.Kept.of_number {number number' : Text → Int} {p : Parts} {b : Bool} {d : DeviceProxy}
    (h : p.Kept number b d) (hn : ∀ a, p.address = some a → number a.port = number' a.port) : p.Kept number' b d where
  deviceName := h.deviceName
  isAlias := h.isAlias
  dbaseUsed := h.dbaseUsed
  fromEnvVar := h.fromEnvVar
  database a hb ha := hn a ha ▸ h.database a hb ha
  server a hb ha := hn a ha ▸ h.server a hb ha

theorem streamInt_port {port : Text} (hne : port ≠ []) (hd : ∀ c ∈ port, c.isDigit = true) :
    streamInt port = min 2147483647 (portValue port) := by
  have htake : port.takeWhile Char.isDigit = port := List.takeWhile_eq_self_iff.mpr hd
  have hread : readNat port = some (Nat.ofDigitChars 10 port 0) := by
    unfold readNat
    rw [htake,if_neg hne]
  rw [streamInt_digits hd hread,portValue]
  omega

/-- What the parser takes and has nothing unseen in it is a name of the syntax, and its port is stored whole. -/
theorem Parts.proper_of_seen {p : Parts} {b : Bool} (hl : p.Loose b) (h : ¬ p.Unseen) :
    p.Proper b ∧ ∀ a, p.address = some a → streamInt a.port = portValue a.port := by
  obtain ⟨address,x⟩ := p
  obtain ⟨hx,halias,haddr⟩ := hl
  obtain ⟨hnamed,hport⟩ := not_or.mp h
  dsimp only at hx halias haddr hnamed hport
  have hseen : ∀ a, address = some a → a.host ≠ [] ∧ a.port ≠ [] ∧ (∀ c ∈ a.port, c.isDigit = true) ∧
      portValue a.port ≤ 2147483647 := by
    intro a ha
    refine ⟨fun hn => hport ⟨a,ha,.inl hn⟩,fun hn => hport ⟨a,ha,.inr (.inl hn)⟩,fun c hc => ?_,?_⟩
    · by_contra hd
      exact hport ⟨a,ha,.inr (.inr (.inl ⟨c,hc,Bool.not_eq_true _ ▸ hd⟩))⟩
    · by_contra hv
      exact hport ⟨a,ha,.inr (.inr (.inr (Int.not_le.mp hv)))⟩
  refine ⟨⟨?_,?_,?_⟩,?_⟩
  · cases x with
    | device dom fam mem =>
      obtain ⟨hd,hm⟩ := not_or.mp hnamed
      exact ⟨⟨hd,hx.1⟩,⟨hx.2.2.2,hx.2.1⟩,⟨hm,hx.2.2.1⟩⟩
    | devAlias n => exact ⟨hnamed,hx⟩
  · rintro a rfl
    obtain ⟨hne,hpne,hdig,-⟩ := hseen a rfl
    exact ⟨⟨hne,haddr.1,haddr.2.1⟩,⟨hpne,hdig⟩⟩
  · rintro rfl
    refine ⟨?_,halias rfl⟩
    cases address with
    | none => cases haddr.1
    | some a => rfl
  · rintro a rfl
    obtain ⟨-,hpne,hdig,hv⟩ := hseen a rfl
    rw [streamInt_port hpne hdig]
    omega

theorem Parts.Proper.seen {p : Parts} {b : Bool} (h : p.Proper b)
    (hnum : ∀ a, p.address = some a → streamInt a.port = portValue a.port) : ¬ p.Unseen := by
  rintro (hn | ⟨a,ha,hport⟩)
  · have hp := h.named
    cases hx : p.named with
    | device dom fam mem =>
      rw [hx] at hn hp
      rcases hn with hn | hn
      · exact hp.1.1 hn
      · exact hp.2.2.1 hn
    | devAlias n =>
      rw [hx] at hn hp
      exact hp.1 hn
  · obtain ⟨hhost,hpne,hdig⟩ := h.address a ha
    rcases hport with hn | hn | ⟨c,hc,hd⟩ | hv
    · exact hhost.1 hn
    · exact hpne hn
    · rw [hdig c hc] at hd
      cases hd
    · have hmin := (streamInt_port hpne hdig).symm.trans (hnum a ha)
      omega

/-- A text with a slip in it is accepted, and not as it is written. -/
theorem slip_not_written (hfqdn : ∀ h, getFqdn h = h) {s : Text} (h : Slip (lower s)) {d : DeviceProxy}
    (hd : d.isAlias = false) : ¬ ParsedAsWritten getFqdn s d := by
  intro hw
  rcases h with ⟨w,htaken,hun⟩ | hfirst
  · obtain ⟨w',-,hproper,hkept⟩ := hw.stored _ (parseName_taken d htaken)
    have hstored := Parts.stored_kept hfqdn (d := { d with dbaseUsed := w.modifier.dbase }) hd w.parts
    have haddr : w.modifier.dbase = false → w.parts.address.isSome = true := by
      intro hb
      have hl := htaken.loose.2.2
      cases ha : w.parts.address with
      | none =>
        rw [ha,hb] at hl
        cases hl.1
      | some a => rfl
    obtain ⟨-,hp,hnum⟩ := hstored.unique hkept htaken.loose.1 hproper.named.loose haddr
    rw [← hp] at hproper
    exact hproper.seen hnum hun
  · obtain ⟨d',hok,hslash,hused⟩ := parseName_slashFirst d hfirst
    obtain ⟨w',-,hproper,hkept⟩ := hw.stored d' hok
    have hb : w'.modifier.dbase = false := hkept.dbaseUsed.symm.trans hused
    obtain ⟨a,ha⟩ := Option.isSome_iff_exists.mp (hproper.noDbase hb).1
    rw [(hkept.server a hb ha).1] at hslash
    exact (hproper.address a ha).host.2.1 hslash

theorem word_ne {c x : Char} (hc : wordChar c) (hx : x ∈ ['/',':','#','>']) : c ≠ x := by
  rintro rfl
  simp only [List.mem_cons,List.not_mem_nil,or_false] at hx
  rcases hx with rfl | rfl | rfl | rfl <;> exact absurd hc (by unfold wordChar; decide)

theorem Named.Plain.chars {x : Named} (h : x.Plain) {c : Char} (hc : c ∈ x.text) : wordChar c ∨ c = '/' := by
  cases x with
  | device a b m =>
    obtain ⟨ha,hb,hm⟩ := h
    rw [Named.text,List.mem_append,List.mem_cons,List.mem_append,List.mem_cons] at hc
    rcases hc with hc | hc | hc | hc | hc
    · exact .inl (ha c hc)
    · exact .inr hc
    · exact .inl (hb c hc)
    · exact .inr hc
    · exact .inl (hm c hc)
  | devAlias n => exact .inl (h c hc)

theorem Named.Plain.clear {x : Named} (h : x.Plain) {c : Char} (hc : c ∈ [':','#']) : c ∉ x.text := by
  intro hm
  have hx : c ∈ ['/',':','#','>'] := by
    rw [List.mem_cons,List.mem_cons] at hc
    rcases hc with rfl | rfl | hc
    · decide
    · decide
    · cases hc
  rcases h.chars hm with hw | rfl
  · exact word_ne hw hx rfl
  · exact absurd hc (by decide)

theorem Modifier.clear (m : Modifier) : ':' ∉ m.text := by
  cases m <;> decide

/-- The first colon has no slash behind it. -/
theorem not_protSep {u v : Text} (hu : ':' ∉ u) (hv : ¬ protSep <:+: v) (hs : v.head? ≠ some '/') :
    ¬ protSep <:+: u ++ ':' :: v := by
  rintro ⟨x,y,h⟩
  have hsep : x ++ ':' :: '/' :: '/' :: y = u ++ ':' :: v := by
    rw [← h,List.append_assoc]
    rfl
  have hx : ':' ∉ x := by
    rcases List.append_eq_append_iff.mp hsep with ⟨k,rfl,-⟩ | ⟨k,rfl,hk⟩
    · exact fun hm => hu (List.mem_append_left _ hm)
    · cases k with
      | nil => rwa [List.append_nil]
      | cons c k =>
        rw [List.cons_append,List.cons.injEq] at hk
        exact absurd ⟨k,y,by rw [hk.2,List.append_assoc]; rfl⟩ hv
  obtain ⟨-,ht⟩ := split_unique hx hu hsep
  exact hs (by rw [← ht]; rfl)

theorem not_protSep_of_clear {s : Text} (h : ':' ∉ s) : ¬ protSep <:+: s :=
  fun hi => h (hi.subset (by decide))

/-- A name with plain words starts with one. -/
theorem Parts.plain_head {p : Parts} {b : Bool} (hp : p.Proper b) (hw : p.Plain) :
    ∃ c t, p.text = c :: t ∧ wordChar c := by
  have hnamed : ∃ c t, p.named.text = c :: t ∧ wordChar c := by
    have hproper := hp.named
    have hplain := hw.1
    cases hx : p.named with
    | device dom fam mem =>
      rw [hx] at hproper hplain
      obtain ⟨c,t,rfl⟩ := List.exists_cons_of_ne_nil hproper.1.1
      exact ⟨c,_,rfl,hplain.1 c List.mem_cons_self⟩
    | devAlias n =>
      rw [hx] at hproper hplain
      obtain ⟨c,t,rfl⟩ := List.exists_cons_of_ne_nil hproper.1
      exact ⟨c,t,rfl,hplain c List.mem_cons_self⟩
  cases ha : p.address with
  | none =>
    unfold Parts.text
    rwa [ha]
  | some a =>
    obtain ⟨c,t,ht⟩ := List.exists_cons_of_ne_nil (hp.address a ha).host.1
    refine ⟨c,t ++ ':' :: a.port ++ '/' :: p.named.text,?_,hw.2 a ha c (by rw [ht]; exact List.mem_cons_self)⟩
    unfold Parts.text
    rw [ha]
    dsimp only
    rw [Address.text,ht]
    rfl

theorem Parts.plain_protSep {p : Parts} {b : Bool} (hp : p.Proper b) (hw : p.Plain) {front behind : Text}
    (hf : ':' ∉ front) (hb : ':' ∉ behind) : ¬ protSep <:+: front ++ (p.text ++ behind) := by
  cases ha : p.address with
  | none =>
    refine not_protSep_of_clear ?_
    unfold Parts.text
    rw [ha]
    dsimp only
    rw [List.mem_append,List.mem_append]
    rintro (hm | hm | hm)
    · exact hf hm
    · exact hw.1.clear (by decide) hm
    · exact hb hm
  | some a =>
    obtain ⟨hhost,hpne,hdig⟩ := hp.address a ha
    have htext : front ++ (p.text ++ behind) =
        (front ++ a.host) ++ ':' :: (a.port ++ '/' :: (p.named.text ++ behind)) := by
      unfold Parts.text
      rw [ha]
      simp [Address.text]
    rw [htext]
    refine not_protSep ?_ (not_protSep_of_clear ?_) ?_
    · rw [List.mem_append]
      rintro (hm | hm)
      · exact hf hm
      · exact hhost.2.2 hm
    · rw [List.mem_append,List.mem_cons,List.mem_append]
      rintro (hm | hm | hm | hm)
      · exact absurd (hdig _ hm) (by decide)
      · cases hm
      · exact hw.1.clear (by decide) hm
      · exact hb hm
    · obtain ⟨c,t,ht⟩ := List.exists_cons_of_ne_nil hpne
      rw [ht,List.cons_append,List.head?_cons]
      rintro ⟨⟩
      exact absurd (hdig '/' (by rw [ht]; exact List.mem_cons_self)) (by decide)

theorem Parts.Proper.loose {p : Parts} {b : Bool} (hp : p.Proper b) (hw : p.Plain) : p.Loose b := by
  refine ⟨hp.named.loose,fun hb => (hp.noDbase hb).2,?_⟩
  cases ha : p.address with
  | none =>
    constructor
    · by_contra hb
      have hsome := (hp.noDbase (Bool.not_eq_true _ ▸ hb)).1
      rw [ha] at hsome
      cases hsome
    · intro dom fam mem hx
      have hproper := hp.named
      have hplain := hw.1
      rw [hx] at hproper hplain
      exact ⟨hproper.1.1,fun hm => word_ne (hplain.1 _ hm) (by decide) rfl⟩
  | some a =>
    obtain ⟨hhost,-,hdig⟩ := hp.address a ha
    exact ⟨hhost.2.1,hhost.2.2,fun hm => absurd (hdig _ hm) (by decide)⟩

theorem Parts.plain_hash {p : Parts} {b : Bool} (hp : p.Proper b) (hw : p.Plain) : '#' ∉ p.text := by
  unfold Parts.text
  cases ha : p.address with
  | none => exact hw.1.clear (by decide)
  | some a =>
    dsimp only
    rw [Address.text,List.mem_append,List.mem_append,List.mem_cons,List.mem_cons]
    rintro ((hm | hm | hm) | hm | hm)
    · exact word_ne (hw.2 a ha _ hm) (by decide) rfl
    · cases hm
    · exact absurd ((hp.address a ha).port.2 _ hm) (by decide)
    · cases hm
    · exact hw.1.clear (by decide) hm

/-- A name with plain words is cut where it is written, also with more behind it. -/
theorem Front.read_plain {p : Parts} {b : Bool} (hp : p.Proper b) (hw : p.Plain) {behind : Text} (hb : ':' ∉ behind)
    (front : Front) : front.Read (front.text ++ (p.text ++ behind)) := by
  obtain ⟨c,t,ht,hc⟩ := Parts.plain_head hp hw
  cases front with
  | tango => trivial
  | slashes =>
    refine ⟨Parts.plain_protSep hp hw (show ':' ∉ Front.slashes.text by decide) hb,?_⟩
    rw [ht,Front.text]
    simp
  | bare =>
    refine ⟨Parts.plain_protSep hp hw (show ':' ∉ Front.bare.text by decide) hb,?_⟩
    rintro ⟨⟨r,hr⟩,-⟩
    rw [ht] at hr
    exact word_ne hc (by decide) (List.cons.inj hr).1.symm

theorem Written.taken_of_plain {w : Written} (hp : w.parts.Proper w.modifier.dbase) (hw : w.parts.Plain) :
    w.Taken w.text := by
  refine ⟨⟨?_,rfl,w.front.read_plain hp hw w.modifier.clear,Parts.plain_hash hp hw⟩,hp.loose hw⟩
  obtain ⟨c,t,ht,-⟩ := Parts.plain_head hp hw
  intro hn
  have hnil := (List.append_eq_nil_iff.mp (List.append_eq_nil_iff.mp hn).2).1
  rw [ht] at hnil
  cases hnil

/-- A proxy that is made reads its name as it is written, unless the parser overlooks something in it. -/
theorem parsed_as_written_iff {getFqdn : Text → Text} (hfqdn : ∀ h, getFqdn h = h) (s : Text)
    (portNum dbPortNum : Int) (fromEnvVar dbaseUsed : Bool) :
    ParsedAsWritten getFqdn s (DeviceProxy.initialised portNum dbPortNum fromEnvVar dbaseUsed) ↔ ¬ Slip (lower s) := by
  constructor
  · exact fun hw h => slip_not_written hfqdn h rfl hw
  · intro hslip
    have hseen (w : Written) (ht : w.Taken (lower s)) : ¬ w.parts.Unseen := fun hu => hslip (.inl ⟨w,ht,hu⟩)
    constructor
    · intro hend
      rcases parseName_cases s (.initialised portNum dbPortNum fromEnvVar dbaseUsed) getFqdn with
        ⟨e,he⟩ | ⟨w,ht⟩ | hf
      · rw [he] at hend
        cases hend
      · rw [parseName_taken _ ht] at hend
        cases hend
      · exact hslip (.inr hf)
    · intro d' hok
      rcases parseName_cases s (.initialised portNum dbPortNum fromEnvVar dbaseUsed) getFqdn with
        ⟨e,he⟩ | ⟨w,ht⟩ | hf
      · rw [he] at hok
        cases hok
      · rw [parseName_taken _ ht] at hok
        cases hok
        obtain ⟨hproper,hnum⟩ := Parts.proper_of_seen ht.loose (hseen w ht)
        have hkept := Parts.stored_kept hfqdn
          (d := { DeviceProxy.initialised portNum dbPortNum fromEnvVar dbaseUsed with dbaseUsed := w.modifier.dbase })
          rfl w.parts
        exact ⟨w,ht.framed.text.symm,hproper,hkept.of_number hnum⟩
      · exact absurd (.inr hf) hslip
    · intro w ht hproper hplain
      have htaken := Written.taken_of_plain hproper hplain
      rw [ht] at htaken
      exact ⟨_,parseName_taken _ htaken⟩

theorem device_parsed_as_written :
    ParsedAsWritten id "a/b/c".toList (.initialised 0 0 false false) ↔ ¬ Slip (lower "a/b/c".toList) :=
  parsed_as_written_iff (fun _ => rfl) "a/b/c".toList 0 0 false false

/-- The last slash has nothing behind it. -/
theorem empty_member_accepted : ¬ ParsedAsWritten id "a/b/".toList (.initialised 0 0 false false) := by
  refine slip_not_written (fun _ => rfl) (.inl ⟨⟨.bare,⟨none,.device ['a'] ['b'] []⟩,.absent⟩,?_,.inl (.inr rfl)⟩) rfl
  constructor
  · exact ⟨by decide,by decide,⟨by decide,by decide⟩,by decide⟩
  · refine ⟨⟨by decide,by decide,by decide,by decide⟩,nofun,rfl,?_⟩
    rintro _ _ _ ⟨⟩
    exact ⟨by decide,by decide⟩

end Properly
end CppTango.Client.Names
