import CppTango.Lib.Memory

namespace CppTango.Event.Realign

open CppTango.Lib

/-- `UserDataEventType`, read off the name of the event. -/
inductive UserDataEventType where
  | attConf
  | attReady
  | devIntr
  | attValue
  | pipe
deriving DecidableEq, Repr

/-- The members of the interface's `AttributeDataType` that stand for 64-bit data. -/
structure AttributeDataType where
  attDouble : Nat
  attLong64 : Nat
  attULong64 : Nat
  small : attDouble < 128 ∧ attLong64 < 128 ∧ attULong64 < 128

structure Move where
  dest : Nat
  src : Nat
  size : Nat
deriving DecidableEq, Repr

/-- The received message and what has been done to it. -/
structure Received where
  memory : Memory UInt8
  dataPtr : Nat
  dataSize : Nat
  shiftZmq420 : Bool
  moves : List Move

def received (m : Memory UInt8) (addr size : Nat) : Received :=
  { memory := m, dataPtr := addr, dataSize := size, shiftZmq420 := false, moves := [] }

def Received.memmove (r : Received) (dest src size : Nat) : Received :=
  { r with
    memory := r.memory.memmove dest src size
    moves := r.moves ++ [{ dest := dest, src := src, size := size }] }

/-- `char`, which is signed. -/
def char (b : UInt8) : Int :=
  if b.toNat < 128 then b.toNat else b.toNat - 256

/-- `int`, of 32 bits. -/
def int (x : Int) : Int :=
  Int.bmod x 4294967296

section Realign
variable (types : AttributeDataType) (type : UserDataEventType) (error endian : Bool)

/-- The size of what the supplier puts before the payload. -/
def padding : Nat :=
  if type = .pipe then 8 else 4

def shiftMem (r : Received) : Received :=
  let shift := r.dataPtr % 4
  if shift ≠ 0 then
    let src := if type = .pipe then r.dataPtr + 4 + 4 else r.dataPtr + 4
    let size := if type = .pipe then r.dataSize - 4 - 4 else r.dataSize - 4
    let dest := src - shift
    -- rounded down to a multiple of eight, whatever stands before it
    let dest := if dest % 8 = 4 then dest - 4 else dest
    { r.memmove dest src size with dataPtr := dest, shiftZmq420 := true }
  else r

/-- The four bytes of the union's discriminator. -/
def discBytes (r : Received) (i : Nat) : UInt8 :=
  r.memory ((if r.shiftZmq420 then r.dataPtr else r.dataPtr + 4) + i)

def disc (r : Received) : Int :=
  -- read on a little-endian host, the bytes swapped with `char` arithmetic where the supplier is not one
  if endian = false then
    int (char (discBytes r 3) + char (discBytes r 2) * 256 + char (discBytes r 1) * 65536 +
      char (discBytes r 0) * 16777216)
  else
    int ((discBytes r 0).toNat + (discBytes r 1).toNat * 256 + (discBytes r 2).toNat * 65536 +
      (discBytes r 3).toNat * 16777216)

def data64 (r : Received) : Bool :=
  if type = .pipe then true
  else if type = .attValue ∧ error = false then
    disc endian r = types.attDouble || disc endian r = types.attLong64 || disc endian r = types.attULong64
  else false

def shiftData64 (r : Received) : Received :=
  let bufferAligned64 := data64 types type error endian r && r.dataPtr % 8 = 0
  if type = .pipe ∧ data64 types type error endian r = true ∧ bufferAligned64 = false then
    { r.memmove (r.dataPtr + 4) (r.dataPtr + 8) (r.dataSize - 8) with
      dataPtr := r.dataPtr + 4
      dataSize := r.dataSize - 4 }
  else if type ≠ .pipe ∧ data64 types type error endian r = true ∧ bufferAligned64 = true ∧
      r.shiftZmq420 = false then
    { r.memmove r.dataPtr (r.dataPtr + 4) (r.dataSize - 4) with dataSize := r.dataSize - 4 }
  else if type = .pipe then
    { r with
      dataPtr := if r.shiftZmq420 = false then r.dataPtr + 8 else r.dataPtr
      dataSize := r.dataSize - 8 }
  else
    { r with
      dataPtr := if r.shiftZmq420 = false then r.dataPtr + 4 else r.dataPtr
      dataSize := r.dataSize - 4 }

/-- What `push_zmq_event` gives to the decoder for a message received at an address. -/
def pushZmqEvent (m : Memory UInt8) (addr size : Nat) : Received :=
  shiftData64 types type error endian (shiftMem type (received m addr size))

end Realign

/-- `0xDEC0DEC0`, in the supplier's byte order. -/
def paddingWord (endian : Bool) : List UInt8 :=
  if endian = true then [0xC0,0xDE,0xC0,0xDE] else [0xDE,0xC0,0xDE,0xC0]

/-- The message `push_event` sends: the word is written twice, and other events start after the first. -/
def pushEvent (type : UserDataEventType) (endian : Bool) (payload : List UInt8) : List UInt8 :=
  (if type = .pipe then paddingWord endian ++ paddingWord endian else paddingWord endian) ++ payload

def word (endian : Bool) (d : Nat) : List UInt8 :=
  if endian = true then [UInt8.ofNat d,0,0,0] else [0,0,0,UInt8.ofNat d]

/-- The payload is that of a 64-bit attribute value, or of a pipe. -/
def Is64 (types : AttributeDataType) (type : UserDataEventType) (error endian : Bool) (payload : List UInt8) : Prop :=
  type = .pipe ∨ (type = .attValue ∧ error = false ∧
    ∃ d ∈ [types.attDouble,types.attLong64,types.attULong64], payload.take 4 = word endian d)

/-- A block of memory inside another. -/
def Inside (addr size start len : Nat) : Prop :=
  addr ≤ start ∧ start + len ≤ addr + size

structure Kept (types : AttributeDataType) (type : UserDataEventType) (error endian : Bool) (addr size : Nat)
    (payload : List UInt8) (r : Received) : Prop where
  inside : Inside addr size r.dataPtr r.dataSize
  length : payload.length ≤ r.dataSize
  holds : r.memory.Holds r.dataPtr payload
  dest : ∀ mv ∈ r.moves, Inside addr size mv.dest mv.size
  src : ∀ mv ∈ r.moves, Inside addr size mv.src mv.size
  aligned : Is64 types type error endian payload → r.dataPtr % 8 = 0

section Shifts
variable {types : AttributeDataType} {type : UserDataEventType} {error endian : Bool} {m : Memory UInt8}
  {addr : Nat} {payload : List UInt8}

theorem length_pushEvent (type : UserDataEventType) (endian : Bool) (payload : List UInt8) :
    (pushEvent type endian payload).length = padding type + payload.length := by
  unfold pushEvent padding paddingWord
  cases endian <;> split <;> simp <;> omega

theorem holds_payload (m : Memory UInt8) (addr : Nat) (type : UserDataEventType) (endian : Bool)
    (payload : List UInt8) :
    (m.write addr (pushEvent type endian payload)).Holds (addr + padding type) payload := by
  have hw := (Memory.holds_append.mp (Memory.holds_write m addr (pushEvent type endian payload))).2
  have hp : (if type = .pipe then paddingWord endian ++ paddingWord endian else paddingWord endian).length =
      padding type := by
    unfold padding paddingWord
    cases endian <;> split <;> rfl
  rwa [hp] at hw

theorem shiftMem_aligned {size : Nat} (h : addr % 4 = 0) :
    shiftMem type (received m addr size) = received m addr size := by
  unfold shiftMem received
  simp [h]

/-- Where a message that starts at no multiple of four is moved to. -/
def shiftedTo (type : UserDataEventType) (addr : Nat) : Nat :=
  if type ≠ .pipe ∧ addr % 8 < 4 then addr - addr % 8 else addr + 8 - addr % 8

theorem shiftMem_shifted {len : Nat} (h : addr % 4 ≠ 0) :
    shiftMem type (received m addr (padding type + len)) =
      { memory := m.memmove (shiftedTo type addr) (addr + padding type) len
        dataPtr := shiftedTo type addr
        dataSize := padding type + len
        shiftZmq420 := true
        moves := [{ dest := shiftedTo type addr, src := addr + padding type, size := len }] } := by
  unfold shiftMem received Received.memmove shiftedTo padding
  by_cases hp : type = .pipe
  · have hd : (if (addr + 4 + 4 - addr % 4) % 8 = 4 then addr + 4 + 4 - addr % 4 - 4 else
        addr + 4 + 4 - addr % 4) = addr + 8 - addr % 8 := by
      split <;> omega
    have hs : 8 + len - 4 - 4 = len := by omega
    simp [h,hp,hd,hs]
  · have hd : (if (addr + 4 - addr % 4) % 8 = 4 then addr + 4 - addr % 4 - 4 else addr + 4 - addr % 4) =
        if addr % 8 < 4 then addr - addr % 8 else addr + 8 - addr % 8 := by
      split <;> split <;> omega
    have hs : 4 + len - 4 = len := by omega
    simp [h,hp,hd,hs]

theorem disc_word {r : Received} (hr : r.shiftZmq420 = false) {d : Nat} (hd : d < 128)
    (hh : r.memory.Holds (r.dataPtr + 4) (word endian d)) : disc endian r = d := by
  have hb : ∀ i (hi : i < (word endian d).length), discBytes r i = (word endian d)[i] := by
    intro i hi
    unfold discBytes
    rw [hr]
    exact hh i hi
  have hn : d % 256 = d := Nat.mod_eq_of_lt (by omega)
  unfold disc
  cases endian with
  | true =>
    have h0 := hb 0 (by simp [word])
    have h1 := hb 1 (by simp [word])
    have h2 := hb 2 (by simp [word])
    have h3 := hb 3 (by simp [word])
    simp only [word,if_true,List.getElem_cons_zero,List.getElem_cons_succ] at h0 h1 h2 h3
    simp only [h0,h1,h2,h3,int,UInt8.toNat_ofNat',Bool.true_eq_false,if_false]
    simp [hn,Int.bmod]
    omega
  | false =>
    have h0 := hb 0 (by simp [word])
    have h1 := hb 1 (by simp [word])
    have h2 := hb 2 (by simp [word])
    have h3 := hb 3 (by simp [word])
    simp only [word,Bool.false_eq_true,if_false,List.getElem_cons_zero,List.getElem_cons_succ] at h0 h1 h2 h3
    simp only [h0,h1,h2,h3,int,char,UInt8.toNat_ofNat',if_true]
    simp [hn,hd,Int.bmod]
    omega

/-- The discriminator is read right where the message stands as it came. -/
theorem data64_of_is64 {r : Received} (hr : r.shiftZmq420 = false) (hh : r.memory.Holds (r.dataPtr + 4) payload)
    (h : Is64 types type error endian payload) : data64 types type error endian r = true := by
  unfold data64
  rcases h with rfl | ⟨rfl,rfl,d,hd,hp⟩
  · rfl
  · have hw : r.memory.Holds (r.dataPtr + 4) (word endian d) := by
      rw [← List.take_append_drop 4 payload,Memory.holds_append,hp] at hh
      exact hh.1
    have hsmall : d < 128 := by
      simp only [List.mem_cons,List.not_mem_nil,or_false] at hd
      have := types.small
      omega
    have hdisc := disc_word hr hsmall hw
    simp only [List.mem_cons,List.not_mem_nil,or_false] at hd
    rcases hd with rfl | rfl | rfl
    · simp [hdisc]
    · simp [hdisc]
    · simp [hdisc]

theorem shiftedTo_aligned (type : UserDataEventType) (addr : Nat) : shiftedTo type addr % 8 = 0 := by
  unfold shiftedTo
  split <;> omega

/-- A moved message stands on a multiple of eight, and no second move is made. -/
theorem pushZmqEvent_shifted (h : addr % 4 ≠ 0) (len : Nat) :
    pushZmqEvent types type error endian m addr (padding type + len) =
      { memory := m.memmove (shiftedTo type addr) (addr + padding type) len
        dataPtr := shiftedTo type addr
        dataSize := len
        shiftZmq420 := true
        moves := [{ dest := shiftedTo type addr, src := addr + padding type, size := len }] } := by
  unfold pushZmqEvent
  rw [shiftMem_shifted h]
  unfold shiftData64
  by_cases hp : type = .pipe
  · have hs : padding type + len - 8 = len := by simp [padding,hp]
    simp [hp,shiftedTo_aligned,data64] at hs ⊢
    exact hs
  · have hs : padding type + len - 4 = len := by simp [padding,hp]
    simp [hp,hs]

/-- What is done to a message that starts at a multiple of four. -/
theorem shiftData64_cases (types : AttributeDataType) (type : UserDataEventType) (error endian : Bool) {r : Received}
    (hr : r.shiftZmq420 = false) (h4 : r.dataPtr % 4 = 0) :
    (type = .pipe ∧ r.dataPtr % 8 = 0 ∧ shiftData64 types type error endian r =
      { r with dataPtr := r.dataPtr + 8, dataSize := r.dataSize - 8 }) ∨
    (type = .pipe ∧ r.dataPtr % 8 = 4 ∧ shiftData64 types type error endian r =
      { r.memmove (r.dataPtr + 4) (r.dataPtr + 8) (r.dataSize - 8) with
        dataPtr := r.dataPtr + 4, dataSize := r.dataSize - 4 }) ∨
    (type ≠ .pipe ∧ r.dataPtr % 8 = 0 ∧ shiftData64 types type error endian r =
      { r.memmove r.dataPtr (r.dataPtr + 4) (r.dataSize - 4) with dataSize := r.dataSize - 4 }) ∨
    (type ≠ .pipe ∧ (data64 types type error endian r = true → r.dataPtr % 8 = 4) ∧
      shiftData64 types type error endian r =
        { r with dataPtr := r.dataPtr + 4, dataSize := r.dataSize - 4 }) := by
  have h8 : r.dataPtr % 8 = 0 ∨ r.dataPtr % 8 = 4 := by omega
  unfold shiftData64
  by_cases hp : type = .pipe
  · subst hp
    have h64 : data64 types .pipe error endian r = true := rfl
    rcases h8 with h8 | h8
    · refine .inl ⟨rfl,h8,?_⟩
      simp [h8,hr]
    · refine .inr (.inl ⟨rfl,h8,?_⟩)
      simp [h64,h8]
  · by_cases h64 : data64 types type error endian r = true
    · rcases h8 with h8 | h8
      · refine .inr (.inr (.inl ⟨hp,h8,?_⟩))
        simp [h64,h8,hp,hr]
      · refine .inr (.inr (.inr ⟨hp,fun _ => h8,?_⟩))
        simp [h8,hp,hr]
    · refine .inr (.inr (.inr ⟨hp,fun h => absurd h h64,?_⟩))
      simp [h64,hp,hr]

/-- A payload that is given where it is, behind the padding. -/
theorem kept_unmoved {r : Received} {pad : Nat} (hm : r.moves = []) (hs : r.dataSize = pad + payload.length)
    (hh : r.memory.Holds (r.dataPtr + pad) payload)
    (ha : Is64 types type error endian payload → (r.dataPtr + pad) % 8 = 0) :
    Kept types type error endian r.dataPtr r.dataSize payload
      { r with dataPtr := r.dataPtr + pad, dataSize := r.dataSize - pad } where
  inside := by
    dsimp only [Inside]
    omega
  length := by
    dsimp only
    omega
  holds := hh
  dest := by simp [hm]
  src := by simp [hm]
  aligned := ha

/-- A payload that is moved into the padding in front of it. -/
theorem kept_moved {r : Received} {pad back : Nat} (hm : r.moves = []) (hs : r.dataSize = pad + payload.length)
    (hb : back + back ≤ pad) (hh : r.memory.Holds (r.dataPtr + pad) payload)
    (ha : Is64 types type error endian payload → (r.dataPtr + back) % 8 = 0) :
    Kept types type error endian r.dataPtr r.dataSize payload
      { r.memmove (r.dataPtr + back) (r.dataPtr + pad) (r.dataSize - pad) with
        dataPtr := r.dataPtr + back, dataSize := r.dataSize - (pad - back) } := by
  have hlen : r.dataSize - pad = payload.length := by omega
  refine ⟨?_,?_,?_,?_,?_,ha⟩
  · dsimp only [Inside,Received.memmove]
    omega
  · dsimp only
    omega
  · rw [hlen]
    exact hh.memmove (Nat.le_refl _)
  · simp only [Received.memmove,hm,List.nil_append,List.mem_singleton,forall_eq,Inside]
    omega
  · simp only [Received.memmove,hm,List.nil_append,List.mem_singleton,forall_eq,Inside]
    omega

/-- A message that starts at a multiple of four keeps its payload. -/
theorem kept_shiftData64 {r : Received} (hr : r.shiftZmq420 = false) (h4 : r.dataPtr % 4 = 0)
    (hm : r.moves = []) (hs : r.dataSize = padding type + payload.length)
    (hh : r.memory.Holds (r.dataPtr + padding type) payload) :
    Kept types type error endian r.dataPtr r.dataSize payload (shiftData64 types type error endian r) := by
  rcases shiftData64_cases types type error endian hr h4 with
    ⟨hp,h8,he⟩ | ⟨hp,h8,he⟩ | ⟨hp,h8,he⟩ | ⟨hp,h8,he⟩
  · have hpad : padding type = 8 := if_pos hp
    rw [hpad] at hs hh
    rw [he]
    exact kept_unmoved hm hs hh fun _ => by omega
  · have hpad : padding type = 8 := if_pos hp
    rw [hpad] at hs hh
    have hback : 4 + 4 ≤ 8 := by omega
    rw [he]
    exact kept_moved hm hs hback hh fun _ => by omega
  · have hpad : padding type = 4 := if_neg hp
    rw [hpad] at hs hh
    rw [he]
    have hback : 0 + 0 ≤ 4 := by omega
    exact kept_moved hm hs hback hh fun _ => h8
  · have hpad : padding type = 4 := if_neg hp
    rw [hpad] at hs hh
    rw [he]
    refine kept_unmoved hm hs hh fun h64 => ?_
    have := h8 (data64_of_is64 hr (hpad ▸ hh) h64)
    omega

/-- The message keeps its payload unless it is moved to before its buffer. -/
theorem payload_kept_iff (types : AttributeDataType) (type : UserDataEventType) (error endian : Bool)
    (m : Memory UInt8) (addr : Nat) (payload : List UInt8) :
    Kept types type error endian addr (pushEvent type endian payload).length payload
      (pushZmqEvent types type error endian (m.write addr (pushEvent type endian payload)) addr
        (pushEvent type endian payload).length) ↔
    type = .pipe ∨ addr % 8 = 0 ∨ 4 ≤ addr % 8 := by
  have hpay := holds_payload m addr type endian payload
  rw [length_pushEvent]
  by_cases h4 : addr % 4 = 0
  · refine iff_of_true ?_ ?_
    · unfold pushZmqEvent
      rw [shiftMem_aligned h4]
      exact kept_shiftData64 (r := received (m.write addr (pushEvent type endian payload)) addr _)
        rfl h4 rfl rfl hpay
    · omega
  · rw [pushZmqEvent_shifted h4]
    constructor
    · intro h
      have hin := h.inside.1
      dsimp only [shiftedTo] at hin
      split at hin
      · omega
      · rename_i hback
        rcases Decidable.not_and_iff_not_or_not.mp hback with hp | h8
        · exact .inl (Decidable.not_not.mp hp)
        · exact .inr (.inr (Nat.le_of_not_lt h8))
    · intro h
      have hto : addr ≤ shiftedTo type addr ∧ shiftedTo type addr ≤ addr + padding type := by
        unfold shiftedTo padding
        split
        · rename_i hback
          have := h.resolve_left hback.1
          omega
        · split
          · omega
          · rename_i hback hp
            have : ¬addr % 8 < 4 := fun h8 => hback ⟨hp,h8⟩
            omega
      refine ⟨?_,Nat.le_refl _,hpay.memmove (Nat.le_refl _),?_,?_,fun _ => shiftedTo_aligned type addr⟩
      · dsimp only [Inside]
        omega
      · simp only [List.mem_singleton,forall_eq,Inside]
        omega
      · simp only [List.mem_singleton,forall_eq,Inside]
        omega

/-- A double received one byte above a multiple of eight is moved to where its buffer has not begun. -/
theorem moved_before_buffer : ¬Kept ⟨5,3,9,by decide⟩ .attValue false true 1025
    (pushEvent .attValue true ([5,0,0,0,1,0,0,0] ++ [0,0,0,0,0,0,240,63])).length
    ([5,0,0,0,1,0,0,0] ++ [0,0,0,0,0,0,240,63])
    (pushZmqEvent ⟨5,3,9,by decide⟩ .attValue false true
      (Memory.write (fun _ => 0) 1025 (pushEvent .attValue true ([5,0,0,0,1,0,0,0] ++ [0,0,0,0,0,0,240,63])))
      1025 (pushEvent .attValue true ([5,0,0,0,1,0,0,0] ++ [0,0,0,0,0,0,240,63])).length) := by
  intro h
  exact absurd h.inside.1 (by decide)

end Shifts

end CppTango.Event.Realign
