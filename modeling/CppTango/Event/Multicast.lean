import CppTango.Device.MultiAttribute
import CppTango.Lib.Numbers
import CppTango.Lib.Text

namespace CppTango.Event.Multicast

open CppTango.Device (thrown)
open CppTango.Lib

abbrev Text := List Char

def lower (s : Text) : Text := s.map Char.toLower

def isEventName (str : Text) : Bool := str.count '/' = 3 && str.count '.' = 1

def isIpAddress (str : Text) : Bool := str.count '.' = 3

/-- A `DevLong` wraps. -/
def devLong (x : Int) : Int := Int.bmod x 4294967296

section Property
variable (prop : List Text)

def startIpMcast (addr : Text) : Int := streamInt (addr.takeWhile (· ≠ '.'))

def multicast (addr : Text) : Bool := 224 ≤ startIpMcast addr && startIpMcast addr ≤ 239

/-- No event name at any of the indices, which are looked at one after the other; `none` is a read outside of the list. -/
def noEventAt : List Nat → Option Bool
  | [] => some true
  | k :: ks => (prop[k]?).bind (fun e => if isEventName e then some false else noEventAt ks)

/-- The check of the property definition behind an address at `i`. -/
def blockUncoherent (i : Nat) (addr : Text) : Option Bool :=
  if multicast addr = false then some true
  else if prop.length < i + 3 then some true
  else if prop.length > i + 4 then noEventAt prop [i + 2,i + 3,i + 4]
  else if prop.length > i + 3 then noEventAt prop [i + 2,i + 3]
  else noEventAt prop [i + 2]

/-- The first loop of `get_event_misc_prop`; the port behind an address is passed over. -/
def uncoherent : Nat → Nat → Option Bool
  | 0,_ => some false
  | f+1,i =>
    if i < prop.length then
      (prop[i]?).bind (fun elt =>
        if isIpAddress elt then
          (blockUncoherent prop i elt).bind (fun bad => if bad then some true else uncoherent f (i + 2))
        else uncoherent f (i + 1))
    else some false

/-- The loop that puts all values in lower case. -/
def lowerAt (kept : List Text) : List Nat → Option (List Text)
  | [] => some []
  | i :: is => (kept[i]?).bind (fun e => (lowerAt kept is).map (lower e :: ·))

/-- `get_event_misc_prop` for the property `MulticastEvent`: one that is not coherent is cleared, and the second loop goes
on to the number of elements there were. -/
def getEventMiscProp : Option (List Text) :=
  let nbElt := prop.length
  (uncoherent prop nbElt 0).bind (fun bad => lowerAt (if bad then [] else prop) (List.range nbElt))

def afterDot (e : Text) : Text := (e.reverse.takeWhile (· ≠ '.')).reverse

/-- What is stored for the event name at `i` when the last address is at `ip`. -/
def definition (ip i : Nat) : Option Text :=
  (prop[i]?).bind (fun e => (prop[ip]?).bind (fun addr => (prop[ip + 1]?).bind (fun port =>
    let tmp := afterDot e ++ ':' :: addr ++ ':' :: port
    (prop[ip + 2]?).bind (fun rate =>
      if isEventName rate then some tmp
      else
        let tmp := tmp ++ ':' :: rate
        (prop[ip + 3]?).bind (fun ivl => some (if isEventName ivl then tmp else tmp ++ ':' :: ivl))))))

/-- The loop of `mcast_event_for_att`. -/
def eventLoop (fullAttName : Text) : Nat → Nat → Nat → Option (List Text)
  | 0,_,_ => some []
  | f+1,i,ip =>
    if i < prop.length then
      (prop[i]?).bind (fun elt =>
        if isIpAddress elt then eventLoop fullAttName f (i + 1) i
        else if isEventName elt && decide (fullAttName <+: elt) then
          (definition prop ip i).bind (fun tmp => (eventLoop fullAttName f (i + 1) ip).map (tmp :: ·))
        else eventLoop fullAttName f (i + 1) ip)
    else some []

def mcastEventForAtt (devName attName : Text) : Option (List Text) :=
  eventLoop prop (devName ++ '/' :: attName) prop.length 0 0

end Property

section Parameters

structure MulticastParameters where
  endpoint : Text
  rate : Int
  recoveryIvl : Int
deriving DecidableEq, Repr

/-- What a definition says, as it is cut at the colons. -/
def parameters (mcastEvent : Text) : MulticastParameters :=
  let start := ((findFrom ':' 0 mcastEvent).map (· + 1)).getD 0
  let second := ((findFrom ':' start mcastEvent).map (· + 1)).getD 0
  match findFrom ':' second mcastEvent with
  | none => ⟨mcastEvent.drop start,0,0⟩
  | some stop =>
    let endpoint := (mcastEvent.drop start).take (stop - start)
    let startRate := stop + 1
    match findFrom ':' startRate mcastEvent with
    | none => ⟨endpoint,devLong (streamInt (mcastEvent.drop startRate) * 1024),0⟩
    | some stop' =>
      ⟨endpoint,devLong (streamInt ((mcastEvent.drop startRate).take (stop' - startRate)) * 1024),
        devLong (streamInt (mcastEvent.drop (stop' + 1)) * 1000)⟩

/-- The server's defaults, and the release of ZMQ. -/
structure Settings where
  mcastRate : Int
  mcastIvl : Int
  zmqRelease : Int
  zmqVersion : String

def Settings.withDefaults (s : Settings) (p : MulticastParameters) : MulticastParameters where
  endpoint := p.endpoint
  rate := if p.rate = 0 then s.mcastRate else p.rate
  recoveryIvl := if p.recoveryIvl = 0 then s.mcastIvl else p.recoveryIvl

def getMulticastParameters (s : Settings) (mcastEvents : List Text) (event : Text) :
    Except DevErrorList MulticastParameters :=
  if event = "intr_change".toList ∨ event = "pipe".toList then .ok ⟨[],0,0⟩
  else
    match mcastEvents.find? (fun m => decide (event <+: m)) with
    | none => .ok (s.withDefaults ⟨[],0,0⟩)
    | some m =>
      if s.zmqRelease < 320 then
        .error (thrown "API_UnsupportedFeature" ("Device server process is using zmq release " ++ s.zmqVersion ++
          "\nMulticast event(s) not available with this ZMQ release") "DServer::get_multicast_parameters")
      else .ok (s.withDefaults (parameters m))

end Parameters

section Meaning

/-- Behind every address that is no port of another one stand a port and, among the next three elements, an event name;
and the address is a multicast one. -/
def Coherent : List Text → Prop
  | [] => True
  | [x] => isIpAddress x = false
  | x :: port :: rest =>
    if isIpAddress x then multicast x = true ∧ (∃ e ∈ rest.take 3, isEventName e = true) ∧ Coherent rest
    else Coherent (port :: rest)

/-- Index of the last address in front of an element, else 0. -/
def addrBefore (prop : List Text) (i : Nat) : Nat :=
  (((List.range i).filter fun k => (prop[k]?).any isIpAddress).getLast?).getD 0

/-- What is read behind an address is there. -/
def Enough (prop : List Text) (ip : Nat) : Prop :=
  ∃ e, prop[ip + 2]? = some e ∧ (isEventName e = true ∨ ip + 3 < prop.length)

/-- Behind the address in front of an event name (or the begin of the list) stand a port and two further elements, or one
that is an event name. -/
def Within (prop : List Text) : Prop :=
  ∀ i e, prop[i]? = some e → isEventName e = true → Enough prop (addrBefore prop i)

end Meaning

section Check
variable {prop : List Text}

theorem noEventAt_range (prop : List Text) {j k : Nat} (h : j + k ≤ prop.length) :
    noEventAt prop (List.range' j k) = some (!((prop.drop j).take k).any isEventName) := by
  induction k generalizing j with
  | zero => rfl
  | succ k ih =>
    have hj : j < prop.length := by omega
    rw [List.range'_succ,noEventAt,List.getElem?_eq_getElem hj,Option.bind_some,List.drop_eq_getElem_cons hj,
      List.take_succ_cons,List.any_cons,ih (by omega)]
    cases isEventName prop[j] <;> rfl

/-- The check asks for a multicast address and an event name among the three elements behind the port. -/
theorem blockUncoherent_eq (i : Nat) (addr : Text) : blockUncoherent prop i addr =
    some (!(multicast addr && ((prop.drop (i + 2)).take 3).any isEventName)) := by
  unfold blockUncoherent
  split
  · rename_i hm
    rw [hm]
    rfl
  · rename_i hm
    rw [Bool.not_eq_false] at hm
    rw [hm,Bool.true_and]
    have hshort : ∀ k, prop.length - (i + 2) ≤ k → k ≤ 3 →
        (prop.drop (i + 2)).take k = (prop.drop (i + 2)).take 3 := fun k hk h3 => by
      rw [List.take_of_length_le (by rwa [List.length_drop]),
        List.take_of_length_le (by rw [List.length_drop]; omega)]
    split
    · rename_i hlen
      rw [List.drop_eq_nil_of_le (by omega)]
      rfl
    · rename_i hlen
      split
      · exact noEventAt_range prop (k := 3) (by omega)
      · rename_i h4
        split
        · have := noEventAt_range prop (j := i + 2) (k := 2) (by omega)
          rwa [hshort 2 (by omega) (by omega)] at this
        · have := noEventAt_range prop (j := i + 2) (k := 1) (by omega)
          rwa [hshort 1 (by omega) (by omega)] at this

theorem coherent_cons {x : Text} {rest : List Text} : Coherent (x :: rest) ↔
    if isIpAddress x then
      multicast x = true ∧ ((rest.drop 1).take 3).any isEventName = true ∧ Coherent (rest.drop 1)
    else Coherent rest := by
  cases rest with
  | nil =>
    by_cases hx : isIpAddress x = true
    · simp [Coherent,hx]
    · simp [Coherent,hx]
  | cons port rest =>
    rw [Coherent,List.drop_one,List.tail_cons,List.any_eq_true]

/-- The loop never reads outside, and finds the property uncoherent when it is. -/
theorem uncoherent_spec (prop : List Text) {f i : Nat} (hf : prop.length ≤ f + i) :
    ∃ bad, uncoherent prop f i = some bad ∧ (bad = false ↔ Coherent (prop.drop i)) := by
  induction f generalizing i with
  | zero =>
    refine ⟨false,rfl,iff_of_true rfl ?_⟩
    rw [List.drop_eq_nil_of_le (by omega)]
    trivial
  | succ f ih =>
    rw [uncoherent]
    by_cases hi : i < prop.length
    · rw [if_pos hi,List.getElem?_eq_getElem hi,Option.bind_some,List.drop_eq_getElem_cons hi,coherent_cons,
        List.drop_drop]
      by_cases hip : isIpAddress prop[i] = true
      · rw [if_pos hip,if_pos hip,blockUncoherent_eq,Option.bind_some]
        obtain ⟨bad,hbad,hiff⟩ := ih (i := i + 2) (by omega)
        cases hok : multicast prop[i] && ((prop.drop (i + 2)).take 3).any isEventName with
        | false =>
          refine ⟨true,rfl,iff_of_false (by decide) ?_⟩
          rintro ⟨hm,he,-⟩
          rw [hm,he] at hok
          cases hok
        | true =>
          rw [Bool.and_eq_true] at hok
          refine ⟨bad,hbad,hiff.trans ?_⟩
          exact ⟨fun h => ⟨hok.1,hok.2,h⟩,fun h => h.2.2⟩
      · rw [if_neg hip,if_neg hip]
        exact ih (by omega)
    · rw [if_neg hi]
      refine ⟨false,rfl,iff_of_true rfl ?_⟩
      rw [List.drop_eq_nil_of_le (by omega)]
      trivial

theorem lowerAt_none {is : List Nat} (h : ∃ i ∈ is, prop.length ≤ i) : lowerAt prop is = none := by
  induction is with
  | nil =>
    obtain ⟨i,hi,-⟩ := h
    cases hi
  | cons j js ih =>
    rw [lowerAt]
    obtain ⟨i,hi,hle⟩ := h
    rcases List.mem_cons.mp hi with rfl | hi
    · rw [List.getElem?_eq_none hle]
      rfl
    · rw [ih ⟨i,hi,hle⟩]
      cases prop[j]? <;> rfl

theorem lowerAt_range {j k : Nat} (h : j + k = prop.length) :
    lowerAt prop (List.range' j k) = some ((prop.drop j).map lower) := by
  induction k generalizing j with
  | zero =>
    rw [List.drop_eq_nil_of_le (by omega)]
    rfl
  | succ k ih =>
    have hj : j < prop.length := by omega
    rw [List.range'_succ,lowerAt,List.getElem?_eq_getElem hj,Option.bind_some,ih (by omega),
      List.drop_eq_getElem_cons hj]
    rfl

/-- A coherent property is kept in lower case; at one that is not, elements that are not there any more are read. -/
theorem getEventMiscProp_eq (prop : List Text) [Decidable (Coherent prop)] :
    getEventMiscProp prop = if Coherent prop then some (prop.map lower) else none := by
  obtain ⟨bad,hbad,hiff⟩ := uncoherent_spec prop (f := prop.length) (i := 0) (Nat.le_refl _)
  rw [List.drop_zero] at hiff
  unfold getEventMiscProp
  simp only [hbad,Option.bind_some]
  cases bad with
  | false =>
    rw [if_pos (hiff.mp rfl),List.range_eq_range']
    exact lowerAt_range (Nat.zero_add _)
  | true =>
    have hnot : ¬ Coherent prop := fun h => absurd (hiff.mpr h) (by decide)
    rw [if_neg hnot]
    cases prop with
    | nil => exact absurd trivial hnot
    | cons x rest => exact lowerAt_none ⟨0,by simp,Nat.le_refl _⟩

end Check

section Reading
variable {prop : List Text}

theorem addrBefore_succ {i : Nat} {x : Text} (hx : prop[i]? = some x) :
    addrBefore prop (i + 1) = if isIpAddress x then i else addrBefore prop i := by
  unfold addrBefore
  rw [List.range_succ,List.filter_append]
  by_cases h : isIpAddress x = true
  · simp [hx,h]
  · simp [hx,h]

theorem event_not_address {e : Text} (h : isEventName e = true) : isIpAddress e = false := by
  unfold isEventName at h
  unfold isIpAddress
  grind

theorem definition_isSome {ip i : Nat} (hi : i < prop.length) :
    (definition prop ip i).isSome = true ↔ Enough prop ip := by
  unfold definition Enough
  rw [List.getElem?_eq_getElem hi]
  by_cases h2 : ip + 2 < prop.length
  · rw [List.getElem?_eq_getElem (show ip < prop.length by omega),
      List.getElem?_eq_getElem (show ip + 1 < prop.length by omega),List.getElem?_eq_getElem h2]
    simp only [Option.bind_some,Option.some.injEq,exists_eq_left']
    by_cases he : isEventName prop[ip + 2] = true
    · simp [he]
    · by_cases h3 : ip + 3 < prop.length
      · simp [he,h3]
      · simp [he,h3]
  · have hnone : prop[ip + 2]? = none := List.getElem?_eq_none (by omega)
    rw [hnone]
    refine iff_of_false ?_ (by rintro ⟨e,he,-⟩; cases he)
    cases prop[ip]? <;> cases prop[ip + 1]? <;> simp

/-- The loop reads inside exactly when what it takes from behind an address is there, for each event name of the
attribute. -/
theorem eventLoop_isSome (full : Text) {f i : Nat} (hf : prop.length ≤ f + i) :
    (eventLoop prop full f i (addrBefore prop i)).isSome = true ↔
      ∀ j e, i ≤ j → prop[j]? = some e → isEventName e = true → full <+: e → Enough prop (addrBefore prop j) := by
  induction f generalizing i with
  | zero =>
    refine iff_of_true rfl fun j e hj he => ?_
    obtain ⟨hlt,-⟩ := List.getElem?_eq_some_iff.mp he
    omega
  | succ f ih =>
    rw [eventLoop]
    by_cases hi : i < prop.length
    · rw [if_pos hi,List.getElem?_eq_getElem hi,Option.bind_some]
      have hx : prop[i]? = some prop[i] := List.getElem?_eq_getElem hi
      have hrest := ih (i := i + 1) (by omega)
      rw [addrBefore_succ hx] at hrest
      have hsplit : ∀ P : Nat → Text → Prop, (∀ j e, i ≤ j → prop[j]? = some e → P j e) ↔
          P i prop[i] ∧ ∀ j e, i + 1 ≤ j → prop[j]? = some e → P j e := by
        intro P
        constructor
        · intro h
          exact ⟨h i _ (Nat.le_refl i) hx,fun j e hj => h j e (by omega)⟩
        · rintro ⟨h0,h⟩ j e hj he
          rcases Nat.eq_or_lt_of_le hj with rfl | hj
          · rw [hx] at he
            cases he
            exact h0
          · exact h j e hj he
      rw [hsplit]
      by_cases hip : isIpAddress prop[i] = true
      · rw [if_pos hip] at hrest ⊢
        rw [hrest]
        refine (and_iff_right fun hev => ?_).symm
        rw [event_not_address hev] at hip
        cases hip
      · rw [if_neg hip] at hrest ⊢
        by_cases hev : isEventName prop[i] = true ∧ full <+: prop[i]
        · rw [if_pos (by simpa using hev)]
          have hd : (definition prop (addrBefore prop i) i).isSome = true ↔ Enough prop (addrBefore prop i) :=
            definition_isSome hi
          simp only [hev.1,hev.2,true_implies]
          rw [← hd]
          cases definition prop (addrBefore prop i) i with
          | none => simp
          | some tmp => simpa only [Option.bind_some,Option.isSome_map,Option.isSome_some,true_and] using hrest
        · rw [if_neg (by simpa using hev),hrest]
          exact (and_iff_right fun h1 h2 => absurd ⟨h1,h2⟩ hev).symm
    · rw [if_neg hi]
      refine iff_of_true rfl fun j e hj he => ?_
      obtain ⟨hlt,-⟩ := List.getElem?_eq_some_iff.mp he
      omega

theorem mcastEventForAtt_isSome {devName attName : Text} : (mcastEventForAtt prop devName attName).isSome = true ↔
    ∀ j e, prop[j]? = some e → isEventName e = true → devName ++ '/' :: attName <+: e →
      Enough prop (addrBefore prop j) := by
  unfold mcastEventForAtt
  refine (eventLoop_isSome (devName ++ '/' :: attName) (f := prop.length) (i := 0) (Nat.le_refl _)).trans ?_
  exact forall_congr' fun j => forall_congr' fun e => ⟨fun h => h (Nat.zero_le j),fun h _ => h⟩

/-- An event name is the name of an attribute of a device, with more behind it. -/
theorem event_cut {e : Text} (h : isEventName e = true) : ∃ devName attName, e = devName ++ '/' :: attName := by
  have hm : '/' ∈ e := by
    unfold isEventName at h
    rw [← List.count_pos_iff]
    grind
  obtain ⟨a,b,hab⟩ := List.append_of_mem hm
  exact ⟨a,b,hab⟩

theorem within_iff : Within prop ↔ ∀ devName attName, (mcastEventForAtt prop devName attName).isSome = true := by
  constructor
  · intro h devName attName
    rw [mcastEventForAtt_isSome]
    exact fun j e hj he _ => h j e hj he
  · intro h i e hi he
    obtain ⟨devName,attName,hcut⟩ := event_cut he
    exact mcastEventForAtt_isSome.mp (h devName attName) i e hi he (by rw [hcut])

end Reading

end CppTango.Event.Multicast
