import CppTango.Event.Multicast

namespace CppTango.Event.Multicast
open CppTango.Lib

section Blocks

/-- A positive number in decimal digits; its product with a factor fits into an `int`. -/
structure Number (factor : Nat) where
  text : Text
  value : Nat
  digits : ∀ c ∈ text, c.isDigit = true
  reads : readNat text = some value
  positive : 0 < value
  fits : value * factor ≤ 2147483647

/-- A block of the property: an address, a port, a rate and an ivl when they are given, and event names. -/
structure Block where
  addr : Text
  port : Text
  rate : Option (Number 1024 × Option (Number 1000))
  events : List Text
  dotted : isIpAddress addr = true ∧ ∀ c ∈ addr, c.isDigit = true ∨ c = '.'
  portDigits : ∀ c ∈ port, c.isDigit = true
  named : ∀ e ∈ events, isEventName e = true ∧ ':' ∉ afterDot e
  listed : events ≠ []

/-- What stands between the port and the event names. -/
def Block.numbers (b : Block) : List Text :=
  match b.rate with
  | none => []
  | some (rate,none) => [rate.text]
  | some (rate,some ivl) => [rate.text,ivl.text]

def Block.strings (b : Block) : List Text := b.addr :: b.port :: (b.numbers ++ b.events)

def strings (blocks : List Block) : List Text := blocks.flatMap Block.strings

/-- The event names of the property, with their blocks. -/
def listedEvents (blocks : List Block) : List (Block × Text) := blocks.flatMap fun b => b.events.map fun e => (b,e)

/-- What is meant by a block: its address and port, rate and ivl, with the defaults of the server for those not given. -/
def Block.asked (s : Settings) (b : Block) : MulticastParameters where
  endpoint := b.addr ++ ':' :: b.port
  rate := match b.rate with
    | none => s.mcastRate
    | some (rate,_) => (rate.value : Int) * 1024
  recoveryIvl := match b.rate with
    | some (_,some ivl) => (ivl.value : Int) * 1000
    | _ => s.mcastIvl

/-- The definition that is stored for an event name of a block. -/
def Block.define (b : Block) (e : Text) : Text :=
  afterDot e ++ ':' :: b.addr ++ ':' :: b.port ++ b.numbers.flatMap (':' :: ·)

end Blocks

section Meaning
variable (s : Settings) (blocks : List Block) (devName attName event : Text)

/-- The block lists this event of this attribute of the device. -/
def isListed (x : Block × Text) : Bool := lower x.2 = lower devName ++ '/' :: lower attName ++ '.' :: lower event

/-- The event name begins with the name of the attribute, and what is stored for it begins with the event. -/
def beginsSo (x : Block × Text) : Bool :=
  decide (lower devName ++ '/' :: lower attName <+: lower x.2) && decide (lower event <+: x.1.define (lower x.2))

/-- The parameters are those of the block that lists the event, and there is no multicast without such a block. -/
def Reaches : Prop :=
  ∃ prop mcastEvents p, getEventMiscProp (strings blocks) = some prop ∧
    mcastEventForAtt prop (lower devName) (lower attName) = some mcastEvents ∧
    getMulticastParameters s mcastEvents (lower event) = .ok p ∧
    match (listedEvents blocks).find? (isListed devName attName event) with
    | some x => p = x.1.asked s
    | none => p.endpoint = []

/-- The first event name that begins so is in a block that asks for the same as the one that lists the event. -/
def FirstIsMeant : Prop :=
  if lower event = "intr_change".toList ∨ lower event = "pipe".toList then
    (listedEvents blocks).find? (isListed devName attName event) = none
  else
    ∀ x, (listedEvents blocks).find? (beginsSo devName attName event) = some x →
      320 ≤ s.zmqRelease ∧ ∃ y, (listedEvents blocks).find? (isListed devName attName event) = some y ∧
        x.1.asked s = y.1.asked s

end Meaning

section Characters

theorem digit_lower {c : Char} (h : c.isDigit = true) : c.toLower = c := by
  have hd : c.val.toNat ≤ 57 := by
    have : 48 ≤ c.val.toNat ∧ c.val.toNat ≤ 57 := by simpa [Char.isDigit,UInt32.le_iff_toNat_le] using h
    exact this.2
  unfold Char.toLower
  rw [dif_neg]
  rintro ⟨ha,-⟩
  have ha' : 65 ≤ c.val.toNat := ha
  omega

theorem lower_digits {s : Text} (h : ∀ c ∈ s, c.isDigit = true ∨ c = '.') : lower s = s := by
  unfold lower
  rw [List.map_congr_left (g := id),List.map_id]
  intro c hc
  rcases h c hc with hd | rfl
  · exact digit_lower hd
  · rfl

theorem digits_free {s : Text} {x : Char} (hx : x.isDigit = false) (h : ∀ c ∈ s, c.isDigit = true) : x ∉ s := by
  intro hm
  rw [h x hm] at hx
  cases hx

theorem toLower_iff {c x : Char} (hx : x.val.toNat < 65) : c.toLower = x ↔ c = x := by
  constructor
  · intro h
    exact toLower_eq h (by omega)
  · rintro rfl
    unfold Char.toLower
    rw [dif_neg]
    rintro ⟨ha,-⟩
    have ha' : 65 ≤ c.val.toNat := ha
    omega

theorem count_lower (s : Text) {x : Char} (hx : x.val.toNat < 65) : (lower s).count x = s.count x := by
  unfold lower
  rw [List.count_eq_countP,List.countP_map,List.count_eq_countP]
  apply List.countP_congr
  intro c _
  simp only [Function.comp_apply,beq_iff_eq]
  exact toLower_iff hx

theorem isEventName_lower (s : Text) : isEventName (lower s) = isEventName s := by
  unfold isEventName
  rw [count_lower s (by decide),count_lower s (by decide)]

theorem digits_plain {s : Text} (h : ∀ c ∈ s, c.isDigit = true) : isEventName s = false ∧ isIpAddress s = false := by
  have hs : s.count '/' = 0 := List.count_eq_zero.mpr (digits_free (by decide) h)
  have hd : s.count '.' = 0 := List.count_eq_zero.mpr (digits_free (by decide) h)
  unfold isEventName isIpAddress
  rw [hs,hd]
  exact ⟨rfl,rfl⟩

end Characters

section Numbers
variable {factor : Nat} (n : Number factor)

theorem Number.streamInt_eq (hf : 0 < factor) : streamInt n.text = n.value := by
  have hle : n.value ≤ 2147483647 := (Nat.le_mul_of_pos_right _ hf).trans n.fits
  rw [streamInt_digits n.digits n.reads]
  omega

theorem devLong_small {x : Int} (h0 : 0 ≤ x) (h : x ≤ 2147483647) : devLong x = x := by
  unfold devLong
  rw [Int.bmod_def]
  omega

end Numbers

section Definitions
variable (b : Block)

theorem Block.numbers_free {t : Text} (ht : t ∈ b.numbers) : ∀ c ∈ t, c.isDigit = true := by
  unfold Block.numbers at ht
  split at ht
  · cases ht
  · rename_i rate _
    rw [List.mem_singleton.mp ht]
    exact rate.digits
  · rename_i rate ivl _
    rcases List.mem_cons.mp ht with rfl | ht
    · exact rate.digits
    · rw [List.mem_singleton.mp ht]
      exact ivl.digits

theorem Block.addr_free : ':' ∉ b.addr := by
  intro hm
  rcases b.dotted.2 ':' hm with h | h
  · exact absurd h (by decide)
  · exact absurd h (by decide)

theorem Block.port_free : ':' ∉ b.port := digits_free (by decide) b.portDigits

end Definitions

section Cutting
variable {e a p r t : Text}

theorem find_first (he : ':' ∉ e) (t : Text) : findFrom ':' 0 (e ++ ':' :: t) = some e.length :=
  findFrom_before he t (Nat.zero_le _)

/-- A search behind the first colon is one in what follows it. -/
theorem find_behind (e t : Text) (k : Nat) :
    findFrom ':' (e.length + 1 + k) (e ++ ':' :: t) = (findFrom ':' k t).map (· + (e.length + 1)) := by
  rw [Nat.add_comm (e.length + 1) k]
  exact findFrom_after ':' k e t

theorem drop_behind (e t : Text) (k : Nat) : (e ++ ':' :: t).drop (e.length + 1 + k) = t.drop k := by
  rw [Nat.add_assoc,List.drop_length_add_append,Nat.add_comm,List.drop_succ_cons]

/-- Event, address and port are cut off first. -/
theorem parameters_cut (he : ':' ∉ e) (ha : ':' ∉ a) (t : Text) :
    parameters (e ++ ':' :: (a ++ ':' :: t)) =
      match findFrom ':' 0 t with
      | none => ⟨a ++ ':' :: t,0,0⟩
      | some k =>
        match findFrom ':' (k + 1) t with
        | none => ⟨a ++ ':' :: t.take k,devLong (streamInt (t.drop (k + 1)) * 1024),0⟩
        | some l => ⟨a ++ ':' :: t.take k,devLong (streamInt ((t.drop (k + 1)).take (l - (k + 1))) * 1024),
            devLong (streamInt (t.drop (l + 1)) * 1000)⟩ := by
  have h1 : findFrom ':' 0 (e ++ ':' :: (a ++ ':' :: t)) = some e.length := find_first he _
  have h2 : findFrom ':' (e.length + 1) (e ++ ':' :: (a ++ ':' :: t)) = some (a.length + (e.length + 1)) := by
    have := find_behind e (a ++ ':' :: t) 0
    rw [find_first ha] at this
    exact this
  have hp : e ++ ':' :: (a ++ ':' :: t) = (e ++ ':' :: a) ++ ':' :: t := by simp
  have hlen : a.length + (e.length + 1) + 1 = (e ++ ':' :: a).length + 1 := by
    rw [List.length_append,List.length_cons]
    omega
  have hfind : ∀ k, findFrom ':' ((e ++ ':' :: a).length + 1 + k) (e ++ ':' :: (a ++ ':' :: t)) =
      (findFrom ':' k t).map (· + ((e ++ ':' :: a).length + 1)) := by
    intro k
    rw [hp,find_behind]
  have hdrop : ∀ k, (e ++ ':' :: (a ++ ':' :: t)).drop ((e ++ ':' :: a).length + 1 + k) = t.drop k := by
    intro k
    rw [hp,drop_behind]
  have hstart : (e ++ ':' :: (a ++ ':' :: t)).drop (e.length + 1) = a ++ ':' :: t := drop_behind e _ 0
  have htake : ∀ k, (a ++ ':' :: t).take (k + ((e ++ ':' :: a).length + 1) - (e.length + 1)) =
      a ++ ':' :: t.take k := by
    intro k
    rw [← hlen,show k + (a.length + (e.length + 1) + 1) - (e.length + 1) = a.length + (k + 1) by omega,
      List.take_length_add_append,List.take_succ_cons]
  have hfirst := hfind 0
  rw [Nat.add_zero] at hfirst
  unfold parameters
  simp only [h1,Option.map_some,Option.getD_some,h2,hstart,hlen,hfirst]
  cases findFrom ':' 0 t with
  | none => rfl
  | some k =>
    have hnext := hfind (k + 1)
    rw [show (e ++ ':' :: a).length + 1 + (k + 1) = k + ((e ++ ':' :: a).length + 1) + 1 by omega] at hnext
    have hrate := hdrop (k + 1)
    rw [show (e ++ ':' :: a).length + 1 + (k + 1) = k + ((e ++ ':' :: a).length + 1) + 1 by omega] at hrate
    simp only [Option.map_some,htake,hnext,hrate]
    cases findFrom ':' (k + 1) t with
    | none => rfl
    | some l =>
      have hivl := hdrop (l + 1)
      rw [show (e ++ ':' :: a).length + 1 + (l + 1) = l + ((e ++ ':' :: a).length + 1) + 1 by omega] at hivl
      have hsub : l + ((e ++ ':' :: a).length + 1) - (k + ((e ++ ':' :: a).length + 1) + 1) = l - (k + 1) := by omega
      simp only [Option.map_some,hivl,hsub]

end Cutting

section Definitions
variable (b : Block)

/-- What is stored is cut again at the same places. -/
theorem parameters_define {e : Text} (he : ':' ∉ afterDot e) (s : Settings) :
    s.withDefaults (parameters (b.define e)) = b.asked s := by
  have hd : b.define e = afterDot e ++ ':' :: (b.addr ++ ':' :: (b.port ++ b.numbers.flatMap (':' :: ·))) := by
    unfold Block.define
    simp
  rw [hd,parameters_cut he b.addr_free]
  unfold Settings.withDefaults Block.asked Block.numbers
  cases hr : b.rate with
  | none =>
    have h1 : findFrom ':' 0 (b.port ++ []) = none := by
      rw [List.append_nil]
      exact findFrom_none b.port_free 0
    simp only [List.flatMap_nil,h1]
    simp
  | some r =>
    obtain ⟨rate,ivl⟩ := r
    have hrate : ':' ∉ rate.text := digits_free (by decide) rate.digits
    have hrp := rate.positive
    have hrf := rate.fits
    cases ivl with
    | none =>
      have h1 : findFrom ':' 0 (b.port ++ ':' :: rate.text) = some b.port.length := find_first b.port_free _
      have h2 : findFrom ':' (b.port.length + 1) (b.port ++ ':' :: rate.text) = none := by
        have := find_behind b.port rate.text 0
        rw [findFrom_none hrate] at this
        exact this
      have h3 : (b.port ++ ':' :: rate.text).drop (b.port.length + 1) = rate.text := drop_behind b.port rate.text 0
      have hdl : devLong ((rate.value : Int) * 1024) = rate.value * 1024 := devLong_small (by omega) (by omega)
      simp only [List.flatMap_cons,List.flatMap_nil,List.append_nil,h1,h2,h3,List.take_left,
        rate.streamInt_eq (by decide),hdl]
      rw [if_neg (by omega)]
      simp
    | some ivl =>
      have hivl : ':' ∉ ivl.text := digits_free (by decide) ivl.digits
      have hip := ivl.positive
      have hif := ivl.fits
      let t := b.port ++ ':' :: (rate.text ++ ':' :: ivl.text)
      have h1 : findFrom ':' 0 t = some b.port.length := find_first b.port_free _
      have h2 : findFrom ':' (b.port.length + 1) t = some (rate.text.length + (b.port.length + 1)) := by
        have := find_behind b.port (rate.text ++ ':' :: ivl.text) 0
        rw [find_first hrate] at this
        exact this
      have h3 : t.drop (b.port.length + 1) = rate.text ++ ':' :: ivl.text := drop_behind b.port _ 0
      have h4 : t.drop (rate.text.length + (b.port.length + 1) + 1) = ivl.text := by
        have := drop_behind b.port (rate.text ++ ':' :: ivl.text) (rate.text.length + 1)
        rw [show b.port.length + 1 + (rate.text.length + 1) = rate.text.length + (b.port.length + 1) + 1 by omega] at this
        exact this.trans (drop_behind rate.text ivl.text 0)
      have h5 : t.take b.port.length = b.port := List.take_left
      have hsub : rate.text.length + (b.port.length + 1) - (b.port.length + 1) = rate.text.length := by omega
      have hdl : devLong ((rate.value : Int) * 1024) = rate.value * 1024 := devLong_small (by omega) (by omega)
      have hdi : devLong ((ivl.value : Int) * 1000) = ivl.value * 1000 := devLong_small (by omega) (by omega)
      have ht : b.port ++ [rate.text,ivl.text].flatMap (':' :: ·) = t := by simp [t]
      simp only [ht,h1,h2,h3,h4,h5,hsub,List.take_left,rate.streamInt_eq (by decide),ivl.streamInt_eq (by decide),hdl,
        hdi]
      rw [if_neg (by omega),if_neg (by omega)]

end Definitions

section Loop
variable {prop : List Text} {full : Text} {f i k : Nat} {x : Text} {rest : List Text}

theorem at_of_drop (h : prop.drop i = x :: rest) : i < prop.length ∧ prop[i]? = some x ∧ prop.drop (i + 1) = rest := by
  have hx : prop[i]? = some x := by
    have := congrArg List.head? h
    rwa [List.head?_drop,List.head?_cons] at this
  obtain ⟨hlt,-⟩ := List.getElem?_eq_some_iff.mp hx
  refine ⟨hlt,hx,?_⟩
  rw [← List.drop_drop,h]
  rfl

theorem loop_address (h : prop.drop i = x :: rest) (hx : isIpAddress x = true) :
    eventLoop prop full (f + 1) i k = eventLoop prop full f (i + 1) i := by
  obtain ⟨hi,he,-⟩ := at_of_drop h
  rw [eventLoop,if_pos hi,he,Option.bind_some,if_pos hx]

theorem loop_other (h : prop.drop i = x :: rest) (hx : isEventName x = false ∧ isIpAddress x = false) :
    eventLoop prop full (f + 1) i k = eventLoop prop full f (i + 1) k := by
  obtain ⟨hi,he,-⟩ := at_of_drop h
  rw [eventLoop,if_pos hi,he,Option.bind_some,hx.1,hx.2,Bool.false_and]
  rfl

theorem loop_others {xs : List Text} (h : prop.drop i = xs ++ rest)
    (hxs : ∀ x ∈ xs, isEventName x = false ∧ isIpAddress x = false) :
    eventLoop prop full (xs.length + f) i k = eventLoop prop full f (i + xs.length) k := by
  induction xs generalizing i with
  | nil => rw [List.length_nil,Nat.zero_add,Nat.add_zero]
  | cons x xs ih =>
    rw [List.length_cons,show xs.length + 1 + f = xs.length + f + 1 by omega,loop_other h (hxs x List.mem_cons_self),
      ih (at_of_drop h).2.2 fun y hy => hxs y (List.mem_cons_of_mem _ hy),Nat.add_right_comm]
    rfl

/-- The event names of one block: a definition is stored for those of the attribute. -/
theorem loop_events (full : Text) (define : Text → Text) {es : List Text} (h : prop.drop i = es ++ rest)
    (hes : ∀ e ∈ es, isEventName e = true) (hdef : ∀ j e, i ≤ j → prop[j]? = some e → e ∈ es →
      definition prop k j = some (define e)) :
    eventLoop prop full (es.length + f) i k =
      (eventLoop prop full f (i + es.length) k).map ((es.filter fun e => decide (full <+: e)).map define ++ ·) := by
  induction es generalizing i with
  | nil =>
    rw [List.length_nil,Nat.zero_add,Nat.add_zero]
    simp
  | cons e es ih =>
    obtain ⟨hi,he,hrest⟩ := at_of_drop h
    have hev := hes e List.mem_cons_self
    have hgo := ih hrest (fun y hy => hes y (List.mem_cons_of_mem _ hy))
      (fun j y hj hy hm => hdef j y (by omega) hy (List.mem_cons_of_mem _ hm))
    rw [Nat.add_right_comm,Nat.add_assoc i es.length 1] at hgo
    rw [List.length_cons,show es.length + 1 + f = es.length + f + 1 by omega,eventLoop,if_pos hi,he,Option.bind_some,
      event_not_address hev,hev,Bool.true_and]
    rw [if_neg (by decide)]
    by_cases hp : full <+: e
    · rw [if_pos (by simpa using hp),hdef i e (Nat.le_refl i) he List.mem_cons_self,Option.bind_some,hgo,Option.map_map,
        List.filter_cons_of_pos (by simpa using hp)]
      rfl
    · rw [if_neg (by simpa using hp),hgo,List.filter_cons_of_neg (by simpa using hp)]

theorem loop_end (h : prop.drop i = []) : eventLoop prop full f i k = some [] := by
  cases f with
  | zero => rfl
  | succ f =>
    rw [eventLoop,if_neg]
    have := List.drop_eq_nil_iff.mp h
    omega

end Loop

section Lowered
variable (b : Block)

/-- A block as it is kept. -/
def Block.kept : List Text := b.addr :: b.port :: (b.numbers ++ b.events.map lower)

theorem Block.strings_lower : b.strings.map lower = b.kept := by
  have hn : b.numbers.map lower = b.numbers := by
    rw [List.map_congr_left (g := id),List.map_id]
    intro t ht
    exact lower_digits fun c hc => .inl (b.numbers_free ht c hc)
  unfold Block.strings Block.kept
  rw [List.map_cons,List.map_cons,List.map_append,hn,lower_digits b.dotted.2,
    lower_digits fun c hc => .inl (b.portDigits c hc)]

theorem afterDot_lower (e : Text) : afterDot (lower e) = lower (afterDot e) := by
  have hp : (fun c : Char => decide (c.toLower ≠ '.')) = fun c => decide (c ≠ '.') := by
    funext c
    rw [decide_eq_decide,not_iff_not]
    exact toLower_iff (by decide)
  unfold afterDot lower
  rw [← List.map_reverse,List.takeWhile_map,List.map_reverse]
  exact congrArg (fun p => (List.map Char.toLower (List.takeWhile p e.reverse)).reverse) hp

theorem colon_free_lower {e : Text} (h : ':' ∉ afterDot e) : ':' ∉ afterDot (lower e) := by
  rw [afterDot_lower]
  intro hm
  obtain ⟨c,hc,he⟩ := List.mem_map.mp hm
  rw [toLower_iff (by decide)] at he
  exact h (he ▸ hc)

theorem strings_lower (blocks : List Block) : (strings blocks).map lower = blocks.flatMap Block.kept := by
  unfold strings
  rw [List.map_flatMap]
  exact List.flatMap_congr fun b _ => b.strings_lower

/-- The definitions of a block for one attribute. -/
def Block.definitions (full : Text) : List Text :=
  ((b.events.map lower).filter fun e => decide (full <+: e)).map b.define

variable {prop rest : List Text} {full : Text} {f i k : Nat}

theorem definition_kept (h : prop.drop i = b.kept ++ rest) {j : Nat} {e : Text} (he : prop[j]? = some e) :
    definition prop i j = some (b.define e) := by
  have hat : ∀ m, prop[i + m]? = (b.kept ++ rest)[m]? := fun m => by rw [← h,List.getElem?_drop]
  have h0 := hat 0
  rw [Nat.add_zero] at h0
  have hev : ∀ e ∈ b.events, isEventName (lower e) = true := fun e he => by
    rw [isEventName_lower]
    exact (b.named e he).1
  obtain ⟨e0,es,hes⟩ := List.exists_cons_of_ne_nil b.listed
  have he0 := hev e0 (by rw [hes]; exact List.mem_cons_self)
  unfold definition
  rw [he,h0,hat 1,hat 2,hat 3]
  unfold Block.define Block.kept Block.numbers
  rw [hes]
  cases hr : b.rate with
  | none => simp [he0]
  | some r =>
    obtain ⟨rate,ivl⟩ := r
    have hrate := (digits_plain rate.digits).1
    cases ivl with
    | none => simp [hrate,he0]
    | some ivl => simp [hrate,(digits_plain ivl.digits).1]

theorem loop_block (h : prop.drop i = b.kept ++ rest) :
    eventLoop prop full (b.kept.length + f) i k =
      (eventLoop prop full f (i + b.kept.length) i).map (b.definitions full ++ ·) := by
  have haddr : prop.drop i = b.addr :: b.port :: (b.numbers ++ b.events.map lower ++ rest) := h
  have hport := at_of_drop haddr
  have hnum := at_of_drop hport.2.2
  have hlen : b.kept.length = b.numbers.length + (b.events.map lower).length + 2 := by
    unfold Block.kept
    simp
  have hnums : prop.drop (i + 1 + 1) = b.numbers ++ (b.events.map lower ++ rest) := by
    rw [hnum.2.2,List.append_assoc]
  have hevents : prop.drop (i + 1 + 1 + b.numbers.length) = b.events.map lower ++ rest := by
    rw [← List.drop_drop,hnums,List.drop_left]
  have hgo := loop_events full b.define (f := f) (k := i) hevents
    (fun e he => by
      obtain ⟨e',he',rfl⟩ := List.mem_map.mp he
      rw [isEventName_lower]
      exact (b.named e' he').1)
    (fun j e _ he _ => definition_kept b h he)
  rw [hlen,show b.numbers.length + (b.events.map lower).length + 2 + f =
    b.numbers.length + ((b.events.map lower).length + f) + 1 + 1 by omega,
    loop_address h b.dotted.1,loop_other hport.2.2 (digits_plain b.portDigits),
    loop_others hnums fun t ht => digits_plain (b.numbers_free ht),hgo,
    show i + 1 + 1 + b.numbers.length + (b.events.map lower).length =
      i + (b.numbers.length + (b.events.map lower).length + 2) by omega]
  rfl

theorem loop_blocks {blocks : List Block} (h : prop.drop i = blocks.flatMap Block.kept) :
    eventLoop prop full ((blocks.flatMap Block.kept).length + f) i k =
      some (blocks.flatMap fun b => b.definitions full) := by
  induction blocks generalizing i k with
  | nil => exact loop_end h
  | cons b blocks ih =>
    rw [List.flatMap_cons] at h
    have hrest : prop.drop (i + b.kept.length) = blocks.flatMap Block.kept := by rw [← List.drop_drop,h,List.drop_left]
    rw [List.flatMap_cons,List.length_append,Nat.add_assoc,loop_block b h,ih hrest,Option.map_some,List.flatMap_cons]

theorem mcastEventForAtt_blocks (blocks : List Block) (devName attName : Text) :
    mcastEventForAtt (blocks.flatMap Block.kept) devName attName =
      some (blocks.flatMap fun b => b.definitions (devName ++ '/' :: attName)) := by
  have hd : (blocks.flatMap Block.kept).drop 0 = blocks.flatMap Block.kept := List.drop_zero
  exact loop_blocks (f := 0) (k := 0) hd

end Lowered

section Reaching
variable {s : Settings} {blocks : List Block} {devName attName event : Text} {x : Block × Text}

theorem definitions_eq (blocks : List Block) (full : Text) : (blocks.flatMap fun b => b.definitions full) =
    ((listedEvents blocks).filter fun x => decide (full <+: lower x.2)).map fun x => x.1.define (lower x.2) := by
  unfold listedEvents Block.definitions
  rw [List.filter_flatMap,List.map_flatMap]
  apply List.flatMap_congr
  intro b _
  rw [List.filter_map,List.filter_map,List.map_map,List.map_map]
  rfl

theorem definitions_find (blocks : List Block) (devName attName event : Text) :
    ((blocks.flatMap fun b => b.definitions (lower devName ++ '/' :: lower attName)).find?
      fun m => decide (lower event <+: m)) =
      ((listedEvents blocks).find? (beginsSo devName attName event)).map fun x => x.1.define (lower x.2) := by
  rw [definitions_eq,List.find?_map,List.find?_filter]
  congr 2
  funext x
  simp [beginsSo]

theorem mem_listedEvents (h : x ∈ listedEvents blocks) : x.2 ∈ x.1.events := by
  unfold listedEvents at h
  obtain ⟨b,-,hb⟩ := List.mem_flatMap.mp h
  obtain ⟨e,he,rfl⟩ := List.mem_map.mp hb
  exact he

theorem afterDot_append {u v : Text} (h : '.' ∉ v) : afterDot (u ++ '.' :: v) = v := by
  unfold afterDot
  rw [List.reverse_append,List.reverse_cons,List.append_assoc,List.takeWhile_append_of_pos]
  · simp
  · intro c hc
    rw [List.mem_reverse] at hc
    have hne : c ≠ '.' := fun he => h (he ▸ hc)
    simpa using hne

/-- The event name that lists the event begins so. -/
theorem beginsSo_of_listed (hm : x ∈ listedEvents blocks) (h : isListed devName attName event x = true) :
    beginsSo devName attName event x = true := by
  have he : lower x.2 = lower devName ++ '/' :: lower attName ++ '.' :: lower event := by
    simpa [isListed] using h
  have hev := (x.1.named x.2 (mem_listedEvents hm)).1
  have hdot : '.' ∉ lower event := by
    intro hin
    rw [← isEventName_lower,he] at hev
    have hpos := List.count_pos_iff.mpr hin
    unfold isEventName at hev
    simp only [Bool.and_eq_true,decide_eq_true_eq,List.count_append,List.count_cons_self] at hev
    omega
  unfold beginsSo
  rw [Bool.and_eq_true,decide_eq_true_eq,decide_eq_true_eq,he]
  refine ⟨List.prefix_append _ _,?_⟩
  unfold Block.define
  rw [afterDot_append hdot,List.append_assoc,List.append_assoc]
  exact List.prefix_append _ _

theorem listed_none (h : (listedEvents blocks).find? (beginsSo devName attName event) = none) :
    (listedEvents blocks).find? (isListed devName attName event) = none := by
  rw [List.find?_eq_none] at h ⊢
  exact fun x hx hl => h x hx (beginsSo_of_listed hx hl)

theorem asked_endpoint (s : Settings) (b : Block) : (b.asked s).endpoint ≠ [] := by
  unfold Block.asked
  simp

/-- What is asked for is what the first event name that begins so stands for. -/
theorem getMulticastParameters_eq (s : Settings) (blocks : List Block) (devName attName event : Text)
    (hev : ¬ (lower event = "intr_change".toList ∨ lower event = "pipe".toList)) :
    getMulticastParameters s (blocks.flatMap fun b => b.definitions (lower devName ++ '/' :: lower attName))
      (lower event) =
      match (listedEvents blocks).find? (beginsSo devName attName event) with
      | none => .ok (s.withDefaults ⟨[],0,0⟩)
      | some x =>
        if s.zmqRelease < 320 then
          .error (Device.thrown "API_UnsupportedFeature" ("Device server process is using zmq release " ++
            s.zmqVersion ++ "\nMulticast event(s) not available with this ZMQ release")
            "DServer::get_multicast_parameters")
        else .ok (x.1.asked s) := by
  unfold getMulticastParameters
  rw [if_neg hev,definitions_find]
  cases hf : (listedEvents blocks).find? (beginsSo devName attName event) with
  | none => rfl
  | some x =>
    have hx := mem_listedEvents (List.mem_of_find?_eq_some hf)
    have hcolon := colon_free_lower (x.1.named x.2 hx).2
    simp only [Option.map_some,parameters_define x.1 hcolon]

theorem getEventMiscProp_blocks (hacc : uncoherent (strings blocks) (strings blocks).length 0 = some false) :
    getEventMiscProp (strings blocks) = some (blocks.flatMap Block.kept) := by
  classical
  obtain ⟨bad,hbad,hiff⟩ := uncoherent_spec (strings blocks) (f := (strings blocks).length) (i := 0) (Nat.le_refl _)
  rw [hacc] at hbad
  cases hbad
  have hco : Coherent (strings blocks) := hiff.mp rfl
  rw [getEventMiscProp_eq,if_pos hco,strings_lower]

theorem reaches_iff_asked (hacc : uncoherent (strings blocks) (strings blocks).length 0 = some false) :
    Reaches s blocks devName attName event ↔ ∃ p, getMulticastParameters s
      (blocks.flatMap fun b => b.definitions (lower devName ++ '/' :: lower attName)) (lower event) = .ok p ∧
      match (listedEvents blocks).find? (isListed devName attName event) with
      | some x => p = x.1.asked s
      | none => p.endpoint = [] := by
  have hprop := getEventMiscProp_blocks hacc
  have hm := mcastEventForAtt_blocks blocks (lower devName) (lower attName)
  constructor
  · rintro ⟨prop,m,p,h1,h2,h3,h4⟩
    rw [hprop] at h1
    cases h1
    rw [hm] at h2
    cases h2
    exact ⟨p,h3,h4⟩
  · rintro ⟨p,h3,h4⟩
    exact ⟨_,_,p,hprop,hm,h3,h4⟩

/-- For a property that is accepted, the parameters are those of the block that lists the event exactly when the first
event name that begins so is in such a block. -/
theorem reaches_iff (hacc : uncoherent (strings blocks) (strings blocks).length 0 = some false) :
    Reaches s blocks devName attName event ↔ FirstIsMeant s blocks devName attName event := by
  rw [reaches_iff_asked hacc]
  unfold FirstIsMeant
  by_cases hev : lower event = "intr_change".toList ∨ lower event = "pipe".toList
  · unfold getMulticastParameters
    rw [if_pos hev,if_pos hev]
    cases (listedEvents blocks).find? (isListed devName attName event) with
    | none => simp
    | some y =>
      refine iff_of_false ?_ nofun
      rintro ⟨p,hp,he⟩
      cases hp
      exact asked_endpoint s y.1 (congrArg MulticastParameters.endpoint he).symm
  · rw [if_neg hev,getMulticastParameters_eq s blocks devName attName event hev]
    cases hf : (listedEvents blocks).find? (beginsSo devName attName event) with
    | none =>
      rw [listed_none hf]
      exact iff_of_true ⟨_,rfl,rfl⟩ nofun
    | some x =>
      simp only [Option.some.injEq,forall_eq']
      by_cases hz : s.zmqRelease < 320
      · rw [if_pos hz]
        refine iff_of_false ?_ fun h => absurd h.1 (by omega)
        rintro ⟨p,hp,-⟩
        cases hp
      · rw [if_neg hz]
        simp only [Except.ok.injEq,exists_eq_left']
        rw [and_iff_right (by omega)]
        cases (listedEvents blocks).find? (isListed devName attName event) with
        | none =>
          refine iff_of_false (asked_endpoint s x.1) ?_
          rintro ⟨y,hy,-⟩
          cases hy
        | some y => simp

end Reaching

section Claim

/-- No element outside of the property is read exactly when it is coherent and what is read behind each address is there;
and for a property of blocks the multicast parameters are those of the block that lists the event exactly when the first
event name that begins so is in such a block. -/
theorem multicast_reaches_iff (prop : List Text) (s : Settings) (blocks : List Block)
    (hacc : uncoherent (strings blocks) (strings blocks).length 0 = some false) :
    ((∃ kept, getEventMiscProp prop = some kept ∧
      ∀ devName attName, (mcastEventForAtt kept devName attName).isSome = true) ↔
        Coherent prop ∧ Within (prop.map lower)) ∧
    (∀ devName attName event,
      Reaches s blocks devName attName event ↔ FirstIsMeant s blocks devName attName event) := by
  classical
  refine ⟨?_,fun devName attName event => reaches_iff hacc⟩
  rw [getEventMiscProp_eq]
  by_cases h : Coherent prop
  · rw [if_pos h,and_iff_right h,within_iff]
    simp
  · rw [if_neg h]
    exact iff_of_false (by rintro ⟨kept,hk,-⟩; cases hk) fun hc => h hc.1

end Claim

section Examples

def plain : Settings := ⟨81920,20000,432,"4.3.2"⟩

/-- One block with a rate. -/
def gauges (event : String) (h : isEventName event.toList = true ∧ ':' ∉ afterDot event.toList) : Block where
  addr := "224.0.0.1".toList
  port := "5000".toList
  rate := some (⟨"100".toList,100,List.all_eq_true.mp (by decide),by decide,by decide,by decide⟩,none)
  events := [event.toList]
  dotted := by
    have hall : "224.0.0.1".toList.all (fun c => c.isDigit || c = '.') = true := by decide
    exact ⟨by decide,fun c hc => by simpa using List.all_eq_true.mp hall c hc⟩
  portDigits := List.all_eq_true.mp (by decide)
  named e he := by
    rw [List.mem_singleton.mp he]
    exact h
  listed := nofun

theorem pressure_reached : Reaches plain [gauges "Lab/Gauge/1/Pressure.change" (by decide)] "lab/gauge/1".toList
    "pressure".toList "change".toList := by
  refine ((multicast_reaches_iff [] plain _ (by decide)).2 _ _ _).mpr ?_
  unfold FirstIsMeant
  rw [if_neg (by decide)]
  intro x hx
  refine ⟨by decide,x,?_,rfl⟩
  rw [← hx]
  rfl

/-- `pressure` gets the endpoint of `pressure2`; and after an address alone, elements of a list that is empty are read. -/
theorem longer_name_reached :
    ¬ Reaches plain [gauges "lab/gauge/1/pressure2.change" (by decide)] "lab/gauge/1".toList "pressure".toList
      "change".toList ∧ getEventMiscProp ["224.0.0.1".toList] = none := by
  refine ⟨fun h => ?_,by decide⟩
  rw [reaches_iff (by decide)] at h
  unfold FirstIsMeant at h
  rw [if_neg (by decide)] at h
  obtain ⟨-,y,hy,-⟩ := h _ rfl
  exact nomatch hy

end Examples

end CppTango.Event.Multicast
