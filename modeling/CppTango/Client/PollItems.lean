import CppTango.Lib.Keyed
import CppTango.Lib.Steps
import Mathlib.Logic.Function.Basic

namespace CppTango.Client.PollItems

section Model

inductive Socket
  | control | heartbeat | event
  | mcast (id : Nat)
deriving DecidableEq, Repr

def maxSocketSub : Int := 10

/-- The receiver thread: the poll items that were written, how many of them are polled, and the
sockets of the multicast events. `closed` are the sockets that were deleted. -/
structure Receiver where
  pollList : Int → Option Socket
  pollNb : Int
  oldPollNb : Int
  nbCurrentDelayEventRequests : Int
  eventMcast : List (String × Nat)
  created : Nat
  closed : List Nat
  connectedHeartbeat : List String
  connectedPub : List String

/-- A message on the control socket. -/
inductive Ctrl
  | zmqEnd
  | connectHeartbeat (forceConnect : Bool) (endpoint eventName : String)
  | disconnectHeartbeat (eventName endpoint endpointEvent : String)
  | connectEvent (forceConnect : Bool) (endpoint eventName : String) (subHwm : Int32)
  | disconnectEvent (eventName : String)
  | connectMcastEvent (endpoint eventName : String) (subHwm rate ivl : Int32)
  | delayEvent
  | releaseEvent
deriving DecidableEq, Repr

inductive Reply
  | ok (ret : Bool)
  | zmqError
  | devFailed (desc : String)
deriving DecidableEq, Repr

/-- The thread before its loop. The constructor does not set `old_poll_nb`. -/
def Receiver.start (oldPollNb : Int) : Receiver where
  pollList i := if i = 0 then some .control else if i = 1 then some .heartbeat
    else if i = 2 then some .event else none
  pollNb := 3
  oldPollNb := oldPollNb
  nbCurrentDelayEventRequests := 0
  eventMcast := []
  created := 0
  closed := []
  connectedHeartbeat := []
  connectedPub := []

/-- A publisher is connected to once, unless the connection is forced. -/
def connectWanted (connected : List String) (forceConnect : Bool) (endpoint : String) : Bool :=
  connected = [] || forceConnect || !connected.contains endpoint

def recordConnected (connected : List String) (forceConnect : Bool) (endpoint : String) :
    List String :=
  if forceConnect then connected else connected ++ [endpoint]

def connectMcastEvent (throws : Bool) (eventName : String) (s : Receiver) : Reply × Receiver :=
  if s.eventMcast.any (·.1 == eventName) then (.ok false,s)
  else if s.pollNb = maxSocketSub then
    (.devFailed "Array to store sockets for zmq poll() call is already full",s)
  else if throws then (.zmqError,s)
  else
    (.ok false,
      { s with
        pollList := Function.update s.pollList s.oldPollNb (some (.mcast s.created))
        oldPollNb := s.oldPollNb + 1
        eventMcast := s.eventMcast ++ [(eventName,s.created)]
        created := s.created + 1 })

def disconnectEvent (throws : Bool) (eventName : String) (s : Receiver) : Reply × Receiver :=
  match s.eventMcast.find? (·.1 == eventName) with
  | none => (if throws then .zmqError else .ok false,s)
  | some pos =>
    (.ok false,
      { s with
        oldPollNb := s.oldPollNb - 1
        eventMcast := s.eventMcast.eraseP (·.1 == eventName)
        closed := pos.2 :: s.closed })

def delayEvent (s : Receiver) : Receiver :=
  let s := if s.pollNb ≠ 1 then { s with oldPollNb := s.pollNb, pollNb := 1 } else s
  { s with nbCurrentDelayEventRequests := s.nbCurrentDelayEventRequests + 1 }

def releaseEvent (s : Receiver) : Receiver :=
  let s := if 1 ≤ s.nbCurrentDelayEventRequests then
      { s with nbCurrentDelayEventRequests := s.nbCurrentDelayEventRequests - 1 }
    else s
  if s.nbCurrentDelayEventRequests = 0 then { s with pollNb := s.oldPollNb } else s

def connectHeartbeat (throwsAt : Option Nat) (forceConnect : Bool) (endpoint : String)
    (s : Receiver) : Reply × Receiver :=
  if connectWanted s.connectedHeartbeat forceConnect endpoint then
    if throwsAt = some 0 then (.zmqError,s)
    else
      (if throwsAt = some 1 then .zmqError else .ok false,
        { s with
          connectedHeartbeat := recordConnected s.connectedHeartbeat forceConnect endpoint })
  else (if throwsAt = some 1 then .zmqError else .ok false,s)

def connectEvent (throwsAt : Option Nat) (forceConnect : Bool) (endpoint : String)
    (s : Receiver) : Reply × Receiver :=
  if connectWanted s.connectedPub forceConnect endpoint then
    if throwsAt = some 0 then (.zmqError,s)
    else
      (if throwsAt = some 1 then .zmqError else .ok false,
        { s with connectedPub := recordConnected s.connectedPub forceConnect endpoint })
  else (if throwsAt = some 1 then .zmqError else .ok false,s)

def disconnectHeartbeat (throwsAt : Option Nat) (endpoint endpointEvent : String)
    (s : Receiver) : Reply × Receiver :=
  if throwsAt = some 0 then (.zmqError,s)
  else
    let s := { s with connectedHeartbeat := s.connectedHeartbeat.erase endpoint }
    if throwsAt = some 1 then (.zmqError,s)
    else if s.connectedPub.contains endpointEvent then
      (if throwsAt = some 2 then .zmqError else .ok false,
        { s with connectedPub := s.connectedPub.erase endpointEvent })
    else (.ok false,s)

/-- `throwsAt` is the call of the ZMQ library that throws: connecting (0) and subscribing (1), or
unsubscribing (0), leaving the heartbeat socket (1) and leaving the event socket (2). -/
def processCtrl (throwsAt : Option Nat) (s : Receiver) : Ctrl → Reply × Receiver
  | .zmqEnd => (.ok true,s)
  | .connectHeartbeat forceConnect endpoint _ => connectHeartbeat throwsAt forceConnect endpoint s
  | .disconnectHeartbeat _ endpoint endpointEvent =>
    disconnectHeartbeat throwsAt endpoint endpointEvent s
  | .connectEvent forceConnect endpoint _ _ => connectEvent throwsAt forceConnect endpoint s
  | .disconnectEvent eventName => disconnectEvent throwsAt.isSome eventName s
  | .connectMcastEvent _ eventName _ _ _ => connectMcastEvent throwsAt.isSome eventName s
  | .delayEvent => (.ok false,delayEvent s)
  | .releaseEvent => (.ok false,releaseEvent s)

/-- One turn of the loop of `run_undetached` with a message on the control socket. -/
def step (s : Receiver) (m : Ctrl × Option Nat) : Receiver := (processCtrl m.2 s m.1).2

def run (s : Receiver) (messages : List (Ctrl × Option Nat)) : Receiver := messages.foldl step s

def items (s : Receiver) (n : Int) : List (Option Socket) :=
  (List.range n.toNat).map (fun i : Nat => s.pollList i)

/-- What `zmq::poll` is called with. -/
def polled (s : Receiver) : List (Option Socket) := items s s.pollNb

end Model

section Claim

def fixedItems : List (Option Socket) := [some .control,some .heartbeat,some .event]

/-- The sockets that must be polled are, and no others. -/
structure Polls (s : Receiver) : Prop where
  idle : s.nbCurrentDelayEventRequests = 0 → ∃ mcast : List Nat,
    polled s = fixedItems ++ mcast.map (fun id => some (.mcast id)) ∧
    mcast.Perm (s.eventMcast.map Prod.snd)
  alive : s.nbCurrentDelayEventRequests = 0 → ∀ id ∈ s.closed, some (.mcast id) ∉ polled s
  delayed : s.nbCurrentDelayEventRequests ≠ 0 → polled s = [some .control]

/-- The items that a message changes are in the array. -/
def WritesInside (s : Receiver) (m : Ctrl × Option Nat) : Prop :=
  ∀ i, (step s m).pollList i ≠ s.pollList i → 0 ≤ i ∧ i < maxSocketSub

/-- A release belongs to a delay. -/
def Nested (s : Receiver) (m : Ctrl × Option Nat) : Prop :=
  m.1 = .releaseEvent → 0 < s.nbCurrentDelayEventRequests

/-- A multicast socket is added and removed during a delay only, there is room for it, and it is
removed as the last one of the array. -/
def Fits (s : Receiver) (m : Ctrl × Option Nat) : Prop :=
  match m.1 with
  | .connectMcastEvent _ eventName _ _ _ =>
    s.eventMcast.any (·.1 == eventName) = false → s.pollNb ≠ maxSocketSub → m.2 = none →
      0 < s.nbCurrentDelayEventRequests ∧ s.oldPollNb < maxSocketSub
  | .disconnectEvent eventName =>
    ∀ pos ∈ s.eventMcast.find? (·.1 == eventName),
      0 < s.nbCurrentDelayEventRequests ∧ s.pollList (s.oldPollNb - 1) = some (.mcast pos.2)
  | _ => True

instance (s : Receiver) (m : Ctrl × Option Nat) : Decidable (Nested s m) :=
  inferInstanceAs (Decidable (_ → _))

instance (s : Receiver) : (m : Ctrl × Option Nat) → Decidable (Fits s m)
  | (.connectMcastEvent _ _ _ _ _,_) => inferInstanceAs (Decidable (_ → _))
  | (.disconnectEvent eventName,_) =>
    inferInstanceAs (Decidable (∀ pos ∈ s.eventMcast.find? (·.1 == eventName),
      0 < s.nbCurrentDelayEventRequests ∧ s.pollList (s.oldPollNb - 1) = some (.mcast pos.2)))
  | (.zmqEnd,_) | (.connectHeartbeat _ _ _,_) | (.disconnectHeartbeat _ _ _,_)
  | (.connectEvent _ _ _ _,_) | (.delayEvent,_) | (.releaseEvent,_) => .isTrue trivial

end Claim

section Items
variable {s : Receiver} {n : Int}

/-- An item is written behind the others. -/
theorem items_push {s' : Receiver} {x : Option Socket} (hn : 0 ≤ n)
    (h : s'.pollList = Function.update s.pollList n x) : items s' (n + 1) = items s n ++ [x] := by
  have hsucc : (n + 1).toNat = n.toNat + 1 := by omega
  have hlast : ((n.toNat : Nat) : Int) = n := by omega
  unfold items
  rw [h,hsucc,List.range_succ,List.map_append,List.map_cons,List.map_nil,hlast,
    Function.update_self]
  congr 1
  apply List.map_congr_left
  intro i hi
  apply Function.update_of_ne
  have := List.mem_range.mp hi
  omega

theorem items_last (hn : 0 < n) : items s n = items s (n - 1) ++ [s.pollList (n - 1)] := by
  have hsucc : n.toNat = (n - 1).toNat + 1 := by omega
  have hlast : (((n - 1).toNat : Nat) : Int) = n - 1 := by omega
  unfold items
  rw [hsucc,List.range_succ,List.map_append,List.map_cons,List.map_nil,hlast]

end Items

section Invariant

/-- The number of items outside of a delay. -/
def limit (s : Receiver) : Int :=
  if s.nbCurrentDelayEventRequests = 0 then s.pollNb else s.oldPollNb

structure Inv (s : Receiver) : Prop where
  counted : 0 ≤ s.nbCurrentDelayEventRequests
  single : s.nbCurrentDelayEventRequests ≠ 0 → s.pollNb = 1
  control : s.pollList 0 = some .control
  least : 3 ≤ limit s
  most : limit s ≤ maxSocketSub
  listed : ∃ mcast : List Nat,
    items s (limit s) = fixedItems ++ mcast.map (fun id => some (.mcast id)) ∧
    mcast.Perm (s.eventMcast.map Prod.snd)
  names : (s.eventMcast.map Prod.fst).Nodup
  alive : (s.closed ++ s.eventMcast.map Prod.snd).Nodup
  made : ∀ id ∈ s.closed ++ s.eventMcast.map Prod.snd, id < s.created

theorem inv_start (oldPollNb : Int) : Inv (.start oldPollNb) where
  counted := Int.le_refl 0
  single h := absurd rfl h
  control := rfl
  least := Int.le_refl 3
  most := (by decide : (3 : Int) ≤ maxSocketSub)
  listed := ⟨[],rfl,List.Perm.refl _⟩
  names := List.nodup_nil
  alive := List.nodup_nil
  made id h := by cases h

theorem polls_of_inv {s : Receiver} (h : Inv s) : Polls s := by
  have hlim : s.nbCurrentDelayEventRequests = 0 → limit s = s.pollNb := fun h0 => if_pos h0
  constructor
  · intro h0
    have hl := h.listed
    rw [hlim h0] at hl
    exact hl
  · intro h0 id hid hin
    obtain ⟨mcast,hl,hperm⟩ := h.listed
    rw [hlim h0] at hl
    unfold polled at hin
    rw [hl] at hin
    have hmem : id ∈ mcast := by simpa [fixedItems] using hin
    exact (List.nodup_append.mp h.alive).2.2 id hid id (hperm.mem_iff.mp hmem) rfl
  · intro h0
    unfold polled
    rw [h.single h0]
    change [s.pollList 0] = _
    rw [h.control]

end Invariant

section Steps
variable {s : Receiver}

theorem inv_connectMcastEvent (h : Inv s) {throws : Bool} {eventName : String}
    (hf : s.eventMcast.any (·.1 == eventName) = false → s.pollNb ≠ maxSocketSub → throws = false →
      0 < s.nbCurrentDelayEventRequests ∧ s.oldPollNb < maxSocketSub) :
    Inv (connectMcastEvent throws eventName s).2 ∧
    ∀ i, (connectMcastEvent throws eventName s).2.pollList i ≠ s.pollList i →
      0 ≤ i ∧ i < maxSocketSub := by
  have same : Inv s ∧ ∀ i, s.pollList i ≠ s.pollList i → 0 ≤ i ∧ i < maxSocketSub :=
    ⟨h,fun i hi => absurd rfl hi⟩
  unfold connectMcastEvent
  by_cases hold : s.eventMcast.any (·.1 == eventName) = true
  · rw [if_pos hold]
    exact same
  by_cases hfull : s.pollNb = maxSocketSub
  · rw [if_neg hold,if_pos hfull]
    exact same
  cases throws with
  | true =>
    rw [if_neg hold,if_neg hfull,if_pos rfl]
    exact same
  | false =>
    rw [if_neg hold,if_neg hfull,if_neg Bool.false_ne_true]
    obtain ⟨hdelay,hroom⟩ := hf (Bool.not_eq_true _ ▸ hold) hfull rfl
    have hne : s.nbCurrentDelayEventRequests ≠ 0 := by omega
    have hlim : limit s = s.oldPollNb := if_neg hne
    have hleast := h.least
    rw [hlim] at hleast
    obtain ⟨mcast,hl,hperm⟩ := h.listed
    rw [hlim] at hl
    have hname : eventName ∉ s.eventMcast.map Prod.fst := by
      intro hm
      obtain ⟨pos,hpos,he⟩ := List.mem_map.mp hm
      exact hold (List.any_eq_true.mpr ⟨pos,hpos,by simpa using he⟩)
    constructor
    · constructor
      · exact h.counted
      · exact h.single
      · dsimp only
        rw [Function.update_of_ne (by omega)]
        exact h.control
      · unfold limit
        rw [if_neg hne]
        dsimp only
        omega
      · unfold limit
        rw [if_neg hne]
        dsimp only
        omega
      · refine ⟨mcast ++ [s.created],?_,?_⟩
        · unfold limit
          rw [if_neg hne]
          dsimp only
          rw [items_push (by omega) rfl,hl,List.map_append,List.append_assoc]
          rfl
        · dsimp only
          rw [List.map_append]
          exact hperm.append_right _
      · dsimp only
        rw [List.map_append]
        refine List.nodup_append.mpr ⟨h.names,List.nodup_singleton _,?_⟩
        intro a ha b hb he
        rw [he,List.mem_singleton.mp hb] at ha
        exact hname ha
      · dsimp only
        rw [List.map_append,← List.append_assoc]
        refine List.nodup_append.mpr ⟨h.alive,List.nodup_singleton _,?_⟩
        intro a ha b hb he
        have := h.made a ha
        cases List.mem_singleton.mp hb
        dsimp only at he
        omega
      · intro id hid
        dsimp only at hid ⊢
        rw [List.map_append,← List.append_assoc] at hid
        rcases List.mem_append.mp hid with hid | hid
        · have := h.made id hid
          omega
        · have := List.mem_singleton.mp hid
          dsimp only at this
          omega
    · intro i hi
      dsimp only at hi
      by_cases he : i = s.oldPollNb
      · omega
      · exact absurd (Function.update_of_ne he _ _) hi

theorem inv_disconnectEvent (h : Inv s) {throws : Bool} {eventName : String}
    (hf : ∀ pos ∈ s.eventMcast.find? (·.1 == eventName),
      0 < s.nbCurrentDelayEventRequests ∧ s.pollList (s.oldPollNb - 1) = some (.mcast pos.2)) :
    Inv (disconnectEvent throws eventName s).2 := by
  unfold disconnectEvent
  cases hpos : s.eventMcast.find? (·.1 == eventName) with
  | none => exact h
  | some pos =>
    obtain ⟨hdelay,hlast⟩ := hf pos hpos
    have hne : s.nbCurrentDelayEventRequests ≠ 0 := by omega
    have hlim : limit s = s.oldPollNb := if_neg hne
    have hleast := h.least
    have hmost := h.most
    rw [hlim] at hleast hmost
    obtain ⟨mcast,hl,hperm⟩ := h.listed
    rw [hlim,items_last (by omega),hlast] at hl
    -- the last socket is the one of the event
    obtain ⟨init,hinit,hitems⟩ : ∃ init, mcast = init ++ [pos.2] ∧
        items s (s.oldPollNb - 1) = fixedItems ++ init.map (fun id => some (.mcast id)) := by
      rcases List.eq_nil_or_concat mcast with rfl | ⟨init,id,rfl⟩
      · have hev : items s (s.oldPollNb - 1) ++ [some (.mcast pos.2)] =
            [some .control,some .heartbeat] ++ [some .event] := hl
        cases (List.append_inj' hev rfl).2
      · rw [List.concat_eq_append,List.map_append,← List.append_assoc] at hl
        obtain ⟨hi,he⟩ := List.append_inj' hl rfl
        cases he
        exact ⟨init,List.concat_eq_append,hi⟩
    have hmem : pos ∈ s.eventMcast := List.mem_of_find?_eq_some hpos
    have hname : pos.1 = eventName := by simpa using List.find?_some hpos
    have herase : s.eventMcast.eraseP (·.1 == eventName) = Lib.without Prod.fst eventName s.eventMcast :=
      Lib.eraseP_eq_without h.names eventName
    have hwithout : s.eventMcast.Perm (pos :: s.eventMcast.eraseP (·.1 == eventName)) := by
      rw [herase,← hname]
      exact Lib.perm_without h.names hmem
    have hids : (s.eventMcast.map Prod.snd).Perm
        (pos.2 :: (s.eventMcast.eraseP (·.1 == eventName)).map Prod.snd) := hwithout.map Prod.snd
    have hpermall : (s.closed ++ s.eventMcast.map Prod.snd).Perm
        (pos.2 :: s.closed ++ (s.eventMcast.eraseP (·.1 == eventName)).map Prod.snd) :=
      (hids.append_left _).trans List.perm_middle
    constructor
    · exact h.counted
    · exact h.single
    · exact h.control
    · have hlen := congrArg List.length hitems
      simp only [items,fixedItems,List.length_append,List.length_map,List.length_range,
        List.length_cons,List.length_nil] at hlen
      unfold limit
      rw [if_neg hne]
      dsimp only
      omega
    · unfold limit
      rw [if_neg hne]
      dsimp only
      omega
    · refine ⟨init,?_,?_⟩
      · unfold limit
        rw [if_neg hne]
        exact hitems
      · rw [hinit] at hperm
        have hp := (List.perm_append_comm.trans hperm).trans hids
        exact hp.cons_inv
    · rw [herase]
      exact Lib.nodup_without eventName h.names
    · exact hpermall.nodup_iff.mp h.alive
    · intro id hid
      exact h.made id (hpermall.mem_iff.mpr hid)

theorem inv_delayEvent (h : Inv s) : Inv (delayEvent s) := by
  have hc := h.counted
  obtain ⟨o,he,ho⟩ : ∃ o, delayEvent s = { s with
      oldPollNb := o
      pollNb := 1
      nbCurrentDelayEventRequests := s.nbCurrentDelayEventRequests + 1 } ∧ o = limit s := by
    unfold delayEvent
    by_cases h1 : s.pollNb = 1
    · have hne : s.nbCurrentDelayEventRequests ≠ 0 := by
        intro h0
        have hl := h.least
        unfold limit at hl
        rw [if_pos h0] at hl
        omega
      rw [if_neg (not_not.mpr h1)]
      refine ⟨s.oldPollNb,?_,(if_neg hne).symm⟩
      rw [← h1]
    · have h0 : s.nbCurrentDelayEventRequests = 0 := by
        by_contra hne
        exact h1 (h.single hne)
      rw [if_pos h1]
      exact ⟨s.pollNb,rfl,(if_pos h0).symm⟩
  rw [he]
  have hlim : limit { s with
      oldPollNb := o
      pollNb := 1
      nbCurrentDelayEventRequests := s.nbCurrentDelayEventRequests + 1 } = limit s := by
    rw [← ho]
    apply if_neg
    dsimp only
    omega
  constructor
  · dsimp only
    omega
  · exact fun _ => rfl
  · exact h.control
  · rw [hlim]
    exact h.least
  · rw [hlim]
    exact h.most
  · rw [hlim]
    exact h.listed
  · exact h.names
  · exact h.alive
  · exact h.made

theorem inv_releaseEvent (h : Inv s) (hn : 0 < s.nbCurrentDelayEventRequests) :
    Inv (releaseEvent s) := by
  have hne : s.nbCurrentDelayEventRequests ≠ 0 := by omega
  have hlim : limit s = s.oldPollNb := if_neg hne
  have he : releaseEvent s = { s with
      pollNb := if s.nbCurrentDelayEventRequests = 1 then s.oldPollNb else 1
      nbCurrentDelayEventRequests := s.nbCurrentDelayEventRequests - 1 } := by
    have hle : 1 ≤ s.nbCurrentDelayEventRequests := by omega
    have hp := h.single hne
    unfold releaseEvent
    simp only [if_pos hle]
    by_cases h1 : s.nbCurrentDelayEventRequests = 1
    · have h0 : s.nbCurrentDelayEventRequests - 1 = 0 := by omega
      rw [if_pos h0,if_pos h1]
    · have h0 : ¬ s.nbCurrentDelayEventRequests - 1 = 0 := by omega
      rw [if_neg h0,if_neg h1,hp]
  rw [he]
  have hlim' : limit { s with
      pollNb := if s.nbCurrentDelayEventRequests = 1 then s.oldPollNb else 1
      nbCurrentDelayEventRequests := s.nbCurrentDelayEventRequests - 1 } = limit s := by
    rw [hlim]
    unfold limit
    dsimp only
    by_cases h1 : s.nbCurrentDelayEventRequests = 1
    · rw [if_pos (by omega),if_pos h1]
    · rw [if_neg (by omega)]
  constructor
  · dsimp only
    omega
  · intro h0
    dsimp only at h0 ⊢
    rw [if_neg (by omega)]
  · exact h.control
  · rw [hlim']
    exact h.least
  · rw [hlim']
    exact h.most
  · rw [hlim']
    exact h.listed
  · exact h.names
  · exact h.alive
  · exact h.made

/-- The messages for plain events and heartbeats change nothing that is polled. -/
theorem plain_of_connect (throwsAt : Option Nat) (forceConnect : Bool) (endpoint : String) :
    (∃ l, (connectHeartbeat throwsAt forceConnect endpoint s).2 = { s with connectedHeartbeat := l }) ∧
    ∃ l, (connectEvent throwsAt forceConnect endpoint s).2 = { s with connectedPub := l } := by
  constructor
  · unfold connectHeartbeat
    split
    · split
      · exact ⟨_,rfl⟩
      · exact ⟨_,rfl⟩
    · exact ⟨_,rfl⟩
  · unfold connectEvent
    split
    · split
      · exact ⟨_,rfl⟩
      · exact ⟨_,rfl⟩
    · exact ⟨_,rfl⟩

theorem plain_of_disconnect (throwsAt : Option Nat) (endpoint endpointEvent : String) :
    ∃ l l', (disconnectHeartbeat throwsAt endpoint endpointEvent s).2 =
      { s with connectedHeartbeat := l, connectedPub := l' } := by
  unfold disconnectHeartbeat
  split
  · exact ⟨_,_,rfl⟩
  · dsimp only
    split
    · exact ⟨_,_,rfl⟩
    · split
      · exact ⟨_,_,rfl⟩
      · exact ⟨_,_,rfl⟩

theorem Inv.plain (h : Inv s) (l l' : List String) :
    Inv { s with connectedHeartbeat := l, connectedPub := l' } :=
  ⟨h.1,h.2,h.3,h.4,h.5,h.6,h.7,h.8,h.9⟩

theorem inside_of_same {m : Ctrl × Option Nat} (h : (step s m).pollList = s.pollList) :
    WritesInside s m := by
  intro i hi
  rw [h] at hi
  exact absurd rfl hi

theorem inv_step (h : Inv s) (m : Ctrl × Option Nat) (hn : Nested s m) (hf : Fits s m) :
    Inv (step s m) ∧ WritesInside s m := by
  obtain ⟨c,throwsAt⟩ := m
  cases c with
  | zmqEnd => exact ⟨h,inside_of_same rfl⟩
  | connectHeartbeat forceConnect endpoint eventName =>
    obtain ⟨l,hl⟩ := (plain_of_connect (s := s) throwsAt forceConnect endpoint).1
    have hs : step s (.connectHeartbeat forceConnect endpoint eventName,throwsAt) =
        { s with connectedHeartbeat := l } := hl
    refine ⟨?_,inside_of_same ?_⟩
    · rw [hs]
      exact h.plain l s.connectedPub
    · rw [hs]
  | disconnectHeartbeat eventName endpoint endpointEvent =>
    obtain ⟨l,l',hl⟩ := plain_of_disconnect (s := s) throwsAt endpoint endpointEvent
    have hs : step s (.disconnectHeartbeat eventName endpoint endpointEvent,throwsAt) =
        { s with connectedHeartbeat := l, connectedPub := l' } := hl
    refine ⟨?_,inside_of_same ?_⟩
    · rw [hs]
      exact h.plain l l'
    · rw [hs]
  | connectEvent forceConnect endpoint eventName subHwm =>
    obtain ⟨l,hl⟩ := (plain_of_connect (s := s) throwsAt forceConnect endpoint).2
    have hs : step s (.connectEvent forceConnect endpoint eventName subHwm,throwsAt) =
        { s with connectedPub := l } := hl
    refine ⟨?_,inside_of_same ?_⟩
    · rw [hs]
      exact h.plain s.connectedHeartbeat l
    · rw [hs]
  | disconnectEvent eventName =>
    refine ⟨inv_disconnectEvent h hf,inside_of_same ?_⟩
    change (disconnectEvent throwsAt.isSome eventName s).2.pollList = s.pollList
    unfold disconnectEvent
    split <;> rfl
  | connectMcastEvent endpoint eventName subHwm rate ivl =>
    apply inv_connectMcastEvent h
    intro hnew hfull hthrows
    exact hf hnew hfull (Option.not_isSome_iff_eq_none.mp (by simp [hthrows]))
  | delayEvent =>
    refine ⟨inv_delayEvent h,inside_of_same ?_⟩
    change (delayEvent s).pollList = s.pollList
    unfold delayEvent
    dsimp only
    split <;> rfl
  | releaseEvent =>
    refine ⟨inv_releaseEvent h (hn rfl),inside_of_same ?_⟩
    change (releaseEvent s).pollList = s.pollList
    unfold releaseEvent
    dsimp only
    split <;> split <;> rfl

/-- The receiver thread polls the sockets it must in every state of a run, and every item is
written inside of the array. -/
theorem receiver_polls_exactly (oldPollNb : Int) (messages : List (Ctrl × Option Nat))
    (h : Lib.Along step (fun s m => Nested s m ∧ Fits s m) (.start oldPollNb) messages) :
    Polls (run (.start oldPollNb) messages) ∧
    ∀ m, Nested (run (.start oldPollNb) messages) m → Fits (run (.start oldPollNb) messages) m →
      WritesInside (run (.start oldPollNb) messages) m := by
  have hinv : Inv (run (.start oldPollNb) messages) := by
    apply Lib.along_inv ?_ (inv_start oldPollNb) h
    intro s m hs ⟨hn,hf⟩
    exact (inv_step hs m hn hf).1
  exact ⟨polls_of_inv hinv,fun m hn hf => (inv_step hinv m hn hf).2⟩

/-- Two multicast events, the second of which is removed again. -/
def twoEvents : List (Ctrl × Option Nat) :=
  [(.delayEvent,none),(.connectMcastEvent "epgm://a" "motor/speed" 0 0 0,none),
    (.connectMcastEvent "epgm://b" "motor/current" 0 0 0,none),(.releaseEvent,none),
    (.delayEvent,none),(.disconnectEvent "motor/current",none),(.releaseEvent,none)]

theorem two_events_polled :
    polled (run (.start 0) twoEvents) = fixedItems ++ [some (.mcast 0)] ∧
    Polls (run (.start 0) twoEvents) :=
  ⟨by decide,(receiver_polls_exactly 0 twoEvents (by decide)).1⟩

/-- Two multicast events, the first of which is removed again: its closed socket is polled in
place of the other one. -/
theorem closed_socket_polled :
    Lib.Along step Nested (.start 0)
      [(.delayEvent,none),(.connectMcastEvent "epgm://a" "motor/speed" 0 0 0,none),
        (.connectMcastEvent "epgm://b" "motor/current" 0 0 0,none),(.releaseEvent,none),
        (.delayEvent,none),(.disconnectEvent "motor/speed",none),(.releaseEvent,none)] ∧
    ¬ Polls (run (.start 0)
      [(.delayEvent,none),(.connectMcastEvent "epgm://a" "motor/speed" 0 0 0,none),
        (.connectMcastEvent "epgm://b" "motor/current" 0 0 0,none),(.releaseEvent,none),
        (.delayEvent,none),(.disconnectEvent "motor/speed",none),(.releaseEvent,none)]) :=
  ⟨by decide,fun h => h.alive (by decide) 0 (by decide) (by decide)⟩

end Steps

end CppTango.Client.PollItems
