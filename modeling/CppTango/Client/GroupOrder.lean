import CppTango.Data
import CppTango.Lib.Trees
import Mathlib.Data.List.Nodup

namespace CppTango.Client.Group

open CppTango.Lib

structure GroupDeviceElement where
  name : String
  proxy : Nat
  enabled : Bool
deriving DecidableEq, Repr

/-- The elements of a group; of a sub-group its name is kept. -/
abbrev Elements := Nested GroupDeviceElement String

/-- A group with all below it; each device has a proxy of its own. -/
structure Hierarchy where
  elements : Elements
  proxies : ((elements.leaves true).map GroupDeviceElement.proxy).Nodup

section Walks

def deviceElements (fwd : Bool) : Elements → List GroupDeviceElement
  | .nil => []
  | .leaf d rest => d :: deviceElements fwd rest
  | .node _ sub rest => (if fwd then deviceElements fwd sub else []) ++ deviceElements fwd rest

/-- `get_size_i`, which is called with its default for an element. -/
def getSizeI (fwd : Bool) : Elements → Nat
  | .nil => 0
  | .leaf _ rest => 1 + getSizeI fwd rest
  | .node _ sub rest => (if fwd then getSizeI true sub else 0) + getSizeI fwd rest

/-- The index goes down by one for each element. -/
def getDevice (idx : Int) : Elements → Option GroupDeviceElement
  | .nil => none
  | .leaf d rest => if idx - 1 = 0 then some d else getDevice (idx - 1) rest
  | .node _ sub rest =>
    match getDevice idx sub with
    | some d => some d
    | none => getDevice (idx - 1) rest

end Walks

section Requests

/-- A call that throws: the size of the list is wrong, an element behind its end is used, or there is no request. -/
inductive Failure
  | thrown (reason desc : String)
  | outside
deriving DecidableEq, Repr

def methodArgument (gsize size : Nat) : Failure :=
  .thrown "API_MethodArgument" ("the size of the input argument list must equal the number of device in the group" ++
    " [expected:" ++ toString gsize ++ " - got:" ++ toString size ++ "]")

def badAsynPollId : Failure := .thrown "API_BadAsynPollId" "Invalid asynch. request identifier specified"

/-- What a device keeps of a call for its reply: the argument it was asked with, or that it was disabled. -/
inductive Request (δ : Type)
  | asked (x : δ)
  | disabled
deriving DecidableEq, Repr

/-- A reply of a group: what the device answered, the mark of a disabled one, or that there is no request. -/
inductive Reply (β : Type)
  | answered (name : String) (answer : β)
  | disabled (name : String)
  | unknown (name : String)
deriving DecidableEq, Repr

/-- The hierarchy with the requests of a call; a sub-group keeps whether it forwarded. -/
abbrev Sent (δ : Type) := Nested (GroupDeviceElement × Option (Request δ)) (String × Option Bool)

variable {δ β : Type}

def unsent (es : Elements) : Sent δ := es.map (fun d => (d,none)) (fun g => (g,none))

def asynchRequest (d : GroupDeviceElement) (x : δ) : Request δ := if d.enabled then .asked x else .disabled

/-- The loop over the elements with the index of the next argument; a sub-group gets its slice and checks it again. -/
def sendAll (fwd : Bool) (args : List δ) (j : Nat) : Elements → Except Failure (Sent δ)
  | .nil => .ok .nil
  | .leaf d rest =>
    match args[j]? with
    | none => .error .outside
    | some x => (sendAll fwd args (j + 1) rest).map (.leaf (d,some (asynchRequest d x)))
  | .node g sub rest =>
    if fwd then
      let gsize := getSizeI fwd sub
      if j + gsize ≤ args.length then
        let subD := (args.drop j).take gsize
        if gsize ≠ subD.length then .error (methodArgument gsize subD.length)
        else
          (sendAll fwd subD 0 sub).bind fun sent =>
            (sendAll fwd args (j + gsize) rest).map (.node (g,some fwd) sent)
      else .error .outside
    else (sendAll fwd args j rest).map (.node (g,none) (unsent sub))

def deviceReply (answer : GroupDeviceElement → δ → β) (d : GroupDeviceElement) : Option (Request δ) → Reply β
  | none => .unknown d.name
  | some (.asked x) => .answered d.name (answer d x)
  | some .disabled => .disabled d.name

/-- The loop over the elements for the replies. -/
def replyAll (answer : GroupDeviceElement → δ → β) (fwd : Bool) : Sent δ → Except Failure (List (Reply β))
  | .nil => .ok []
  | .leaf d rest => (replyAll answer fwd rest).map (deviceReply answer d.1 d.2 :: ·)
  | .node g sub rest =>
    if fwd then
      match g.2 with
      | none => .error badAsynPollId
      | some forwarded =>
        (replyAll answer forwarded sub).bind fun replies => (replyAll answer fwd rest).map (replies ++ ·)
    else replyAll answer fwd rest

/-- The calls that were made on the devices, in their order. -/
def handed : Sent δ → List (GroupDeviceElement × δ)
  | .nil => []
  | .leaf (d,some (.asked x)) rest => (d,x) :: handed rest
  | .leaf _ rest => handed rest
  | .node _ sub rest => handed sub ++ handed rest

/-- A synchronous call with a list: the requests are sent and then the replies read. -/
def listForm (answer : GroupDeviceElement → δ → β) (fwd : Bool) (args : List δ) (g : Hierarchy) :
    Except Failure (List (GroupDeviceElement × δ) × List (Reply β)) :=
  let gsize := getSizeI fwd g.elements
  if gsize ≠ args.length then .error (methodArgument gsize args.length)
  else
    (sendAll fwd args 0 g.elements).bind fun sent =>
      (replyAll answer fwd sent).map (fun replies => (handed sent,replies))

def commandInout (command : GroupDeviceElement → String → δ → β) (c : String) (d : List δ) (fwd : Bool)
    (g : Hierarchy) : Except Failure (List (GroupDeviceElement × δ) × List (Reply β)) :=
  listForm (fun dev x => command dev c x) fwd d g

def writeAttribute (write : GroupDeviceElement → δ → β) (d : List δ) (fwd : Bool) (g : Hierarchy) :
    Except Failure (List (GroupDeviceElement × δ) × List (Reply β)) :=
  listForm write fwd d g

end Requests

section Orders
variable {δ β : Type} {fwd : Bool} {es : Elements}

theorem deviceElements_eq (fwd : Bool) (es : Elements) : deviceElements fwd es = es.leaves fwd := by
  induction es with
  | nil => rfl
  | leaf d rest ih => rw [deviceElements,Nested.leaves,ih]
  | node g sub rest ihs ihr => rw [deviceElements,Nested.leaves,ihs,ihr]

theorem getSizeI_eq (fwd : Bool) (es : Elements) : getSizeI fwd es = (deviceElements fwd es).length := by
  induction es generalizing fwd with
  | nil => rfl
  | leaf d rest ih => rw [getSizeI,deviceElements,List.length_cons,ih,Nat.add_comm]
  | node g sub rest ihs ihr =>
    rw [getSizeI,deviceElements,List.length_append,ihr]
    cases fwd with
    | false => rfl
    | true => rw [if_pos rfl,if_pos rfl,ihs]

theorem getDevice_eq (idx : Int) (es : Elements) : getDevice idx es = es.countDown idx := by
  induction es generalizing idx with
  | nil => rfl
  | leaf d rest ih => rw [getDevice,Nested.countDown,ih]
  | node g sub rest ihs ihr =>
    rw [getDevice,Nested.countDown,ihs,ihr]
    cases sub.countDown idx <;> rfl

theorem handed_unsent (es : Elements) : handed (unsent es : Sent δ) = [] := by
  unfold unsent
  induction es with
  | nil => rfl
  | leaf d rest ih => exact ih
  | node g sub rest ihs ihr =>
    rw [Nested.map,handed,ihs,ihr]
    rfl

/-- The reply of a device to its own argument. -/
def replyOf (answer : GroupDeviceElement → δ → β) (p : GroupDeviceElement × δ) : Reply β :=
  if p.1.enabled then .answered p.1.name (answer p.1 p.2) else .disabled p.1.name

theorem deviceReply_asynch (answer : GroupDeviceElement → δ → β) (d : GroupDeviceElement) (x : δ) :
    deviceReply answer d (some (asynchRequest d x)) = replyOf answer (d,x) := by
  unfold asynchRequest replyOf
  cases d.enabled <;> rfl

theorem handed_leaf (d : GroupDeviceElement) (x : δ) (rest : Sent δ) :
    handed (.leaf (d,some (asynchRequest d x)) rest) = (if d.enabled then [(d,x)] else []) ++ handed rest := by
  unfold asynchRequest
  cases d.enabled <;> rfl

/-- A sub-group takes as many arguments as it has devices, and leaves the others to what comes behind it. -/
theorem zip_slices {α : Type} (front back : List α) (args : List δ) (j : Nat) (h : j + front.length ≤ args.length) :
    (front ++ back).zip (args.drop j) =
      front.zip ((args.drop j).take front.length) ++ back.zip (args.drop (j + front.length)) := by
  have hlen : front.length = ((args.drop j).take front.length).length := by
    rw [List.length_take,List.length_drop]
    omega
  rw [← List.drop_drop,← List.zip_append hlen,List.take_append_drop]

/-- The requests go to the devices in the order of the list, and the replies come in that order. -/
theorem sendAll_spec (fwd : Bool) (es : Elements) (args : List δ) (j : Nat)
    (h : j + (deviceElements fwd es).length ≤ args.length) :
    ∃ sent, sendAll fwd args j es = .ok sent ∧
      handed sent = ((deviceElements fwd es).zip (args.drop j)).filter (fun p => p.1.enabled) ∧
      ∀ answer : GroupDeviceElement → δ → β,
        replyAll answer fwd sent = .ok (((deviceElements fwd es).zip (args.drop j)).map (replyOf answer)) := by
  induction es generalizing args j with
  | nil => exact ⟨.nil,rfl,rfl,fun _ => rfl⟩
  | leaf d rest ih =>
    rw [deviceElements,List.length_cons] at h
    obtain ⟨sent,hsent,hhanded,hreply⟩ := ih args (j + 1) (by omega)
    have hj : j < args.length := by omega
    have hdrop : args.drop j = args[j] :: args.drop (j + 1) := List.drop_eq_getElem_cons hj
    refine ⟨.leaf (d,some (asynchRequest d args[j])) sent,?_,?_,?_⟩
    · rw [sendAll,List.getElem?_eq_getElem hj,hsent]
      rfl
    · rw [handed_leaf,hhanded,deviceElements,hdrop,List.zip_cons_cons,List.filter_cons]
      cases d.enabled <;> rfl
    · intro answer
      rw [replyAll,hreply answer,deviceElements,hdrop,List.zip_cons_cons,List.map_cons,deviceReply_asynch]
      rfl
  | node g sub rest ihs ihr =>
    cases fwd with
    | false =>
      obtain ⟨sent,hsent,hhanded,hreply⟩ := ihr args j h
      refine ⟨.node (g,none) (unsent sub) sent,?_,?_,?_⟩
      · rw [sendAll,hsent]
        rfl
      · rw [handed,handed_unsent,hhanded]
        rfl
      · intro answer
        rw [replyAll,hreply answer]
        rfl
    | true =>
      have hdevices : deviceElements true (.node g sub rest) =
          deviceElements true sub ++ deviceElements true rest := rfl
      rw [hdevices,List.length_append] at h
      have hslice : ((args.drop j).take (deviceElements true sub).length).length =
          (deviceElements true sub).length := by
        rw [List.length_take,List.length_drop]
        omega
      obtain ⟨inner,hinner,hhanded,hreply⟩ := ihs ((args.drop j).take (deviceElements true sub).length) 0 (by omega)
      obtain ⟨sent,hsent,hhanded',hreply'⟩ := ihr args (j + (deviceElements true sub).length) (by omega)
      have hzip := zip_slices (deviceElements true sub) (deviceElements true rest) args j (by omega)
      rw [List.drop_zero] at hhanded hreply
      refine ⟨.node (g,some true) inner sent,?_,?_,?_⟩
      · have hin : j + (deviceElements true sub).length ≤ args.length := by omega
        rw [sendAll,if_pos rfl,getSizeI_eq]
        simp only [hin,if_true,hslice,ne_eq,not_true_eq_false,if_false,hinner,hsent]
        rfl
      · rw [handed,hhanded,hhanded',hdevices,hzip,List.filter_append]
      · intro answer
        rw [replyAll,if_pos rfl]
        dsimp only
        rw [hreply answer,hreply' answer,hdevices,hzip,List.map_append]
        rfl

theorem listForm_ok (answer : GroupDeviceElement → δ → β) (fwd : Bool) {args : List δ} (g : Hierarchy)
    (h : args.length = (deviceElements fwd g.elements).length) :
    listForm answer fwd args g =
      .ok (((deviceElements fwd g.elements).zip args).filter (fun p => p.1.enabled),
        ((deviceElements fwd g.elements).zip args).map (replyOf answer)) := by
  obtain ⟨sent,hsent,hhanded,hreply⟩ := sendAll_spec (β := β) fwd g.elements args 0 (by omega)
  rw [List.drop_zero] at hhanded hreply
  have hsize : ¬getSizeI fwd g.elements ≠ args.length := by rw [getSizeI_eq,h]; exact not_not_intro rfl
  unfold listForm
  simp only [hsize,if_false,hsent,Except.bind,hreply answer,hhanded,Except.map]

/-- A call with a list throws just where its size is wrong, and else gives each device its own argument and the replies
in the order of the devices. -/
structure ListInOrder (fwd : Bool) (g : Hierarchy) (args : List δ) (answer : GroupDeviceElement → δ → β)
    (r : Except Failure (List (GroupDeviceElement × δ) × List (Reply β))) : Prop where
  throws : (∃ e, r = .error e) ↔ args.length ≠ getSizeI fwd g.elements
  calls : ∀ handed replies, r = .ok (handed,replies) → handed = (deviceElements fwd g.elements).zip args ∧
    replies = ((deviceElements fwd g.elements).zip args).map (fun p => .answered p.1.name (answer p.1 p.2))

/-- All operations go by one order of the devices. -/
structure OneOrder (δ β : Type) (fwd : Bool) (g : Hierarchy) : Prop where
  size : getSizeI fwd g.elements = (deviceElements fwd g.elements).length
  device : ∀ i : Int, getDevice i g.elements =
    if 1 ≤ i then (deviceElements true g.elements)[(i - 1).toNat]? else none
  commands : ∀ command (c : String) (d : List δ),
    ListInOrder fwd g d (fun dev x => command dev c x) (commandInout (β := β) command c d fwd g)
  writes : ∀ write (d : List δ), ListInOrder fwd g d write (writeAttribute (β := β) write d fwd g)

theorem listForm_error (answer : GroupDeviceElement → δ → β) {args : List δ} {g : Hierarchy}
    (h : args.length ≠ getSizeI fwd g.elements) :
    listForm answer fwd args g = .error (methodArgument (getSizeI fwd g.elements) args.length) := by
  unfold listForm
  exact if_pos (Ne.symm h)

theorem listInOrder_of_enabled {answer : GroupDeviceElement → δ → β} {g : Hierarchy} {args : List δ}
    (h : ∀ d ∈ deviceElements fwd g.elements, d.enabled = true) :
    ListInOrder fwd g args answer (listForm answer fwd args g) := by
  have henabled : ∀ p ∈ (deviceElements fwd g.elements).zip args, p.1.enabled = true :=
    fun p hp => h p.1 (List.of_mem_zip hp).1
  by_cases hlen : args.length = getSizeI fwd g.elements
  · rw [listForm_ok answer fwd g (hlen.trans (getSizeI_eq fwd g.elements))]
    constructor
    · refine iff_of_false ?_ (fun hne => hne hlen)
      rintro ⟨e,he⟩
      cases he
    · intro handed replies hr
      cases hr
      refine ⟨List.filter_eq_self.mpr henabled,?_⟩
      apply List.map_congr_left
      intro p hp
      exact if_pos (henabled p hp)
  · rw [listForm_error answer hlen]
    constructor
    · exact iff_of_true ⟨_,rfl⟩ hlen
    · intro handed replies hr
      cases hr

/-- The order is one just where every device stands behind as many elements as devices, and no device is disabled. -/
theorem one_order_iff [Inhabited δ] [Inhabited β] (fwd : Bool) (g : Hierarchy) : OneOrder δ β fwd g ↔
    g.elements.InPlace ∧ ∀ d ∈ deviceElements fwd g.elements, d.enabled = true := by
  have hplace := Nested.countDown_iff (List.Nodup.of_map _ g.proxies)
  constructor
  · intro h
    constructor
    · apply hplace.mp
      intro idx
      rw [← getDevice_eq,← deviceElements_eq]
      exact h.device idx
    · intro d hd
      obtain ⟨n,hn⟩ := List.mem_iff_getElem?.mp hd
      let args : List δ := List.replicate (deviceElements fwd g.elements).length default
      have hlen : args.length = (deviceElements fwd g.elements).length := List.length_replicate
      have hcalls := ((h.writes (fun _ _ => default) args).calls _ _ (listForm_ok _ fwd g hlen)).1
      have hmem : (d,default) ∈ (deviceElements fwd g.elements).zip args := by
        rw [List.mem_iff_getElem?]
        refine ⟨n,?_⟩
        have hlt := (List.getElem?_eq_some_iff.mp hn).1
        rw [List.getElem?_zip_eq_some]
        exact ⟨hn,by simp [args,hlt]⟩
      have hall := List.filter_eq_self.mp hcalls (d,default) hmem
      exact hall
  · rintro ⟨hp,henabled⟩
    refine ⟨getSizeI_eq fwd g.elements,?_,?_,?_⟩
    · intro idx
      rw [getDevice_eq,deviceElements_eq]
      exact hplace.mpr hp idx
    · intro command c d
      exact listInOrder_of_enabled henabled
    · intro write d
      exact listInOrder_of_enabled henabled

/-- A sub-group of two devices in front of another device. -/
def subGroupFirst : Hierarchy where
  elements := .node "vacuum" (.leaf ⟨"sr/v-pen/1",1,true⟩ (.leaf ⟨"sr/v-pen/2",2,true⟩ .nil))
    (.leaf ⟨"sr/v-pen/3",3,true⟩ .nil)
  proxies := by decide

/-- The third device is not found. -/
theorem third_not_found : ¬OneOrder Nat Nat true subGroupFirst := by
  intro h
  have hget := h.device 3
  exact absurd hget (by decide)

end Orders

end CppTango.Client.Group
