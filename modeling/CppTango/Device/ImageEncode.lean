import CppTango.Device.ImageDecode
import CppTango.Lib.Memory
import CppTango.Lib.Ring

namespace CppTango.Device.Encoded

open CppTango.Lib

section Pool

/-- An element of the buffer pool, once it has been allocated. -/
structure Buffer where
  memory : Memory UInt8
  size : Nat

/-- The buffer pool; a null buffer has the size 0. -/
structure EncodedAttribute where
  bufferArray : List (Option Buffer)
  index : Nat
  format : Option String
  index_lt : index < bufferArray.length

def make (bufEltNb : Nat) (h : 0 < bufEltNb) : EncodedAttribute where
  bufferArray := List.replicate bufEltNb none
  index := 0
  format := none
  index_lt := by simpa using h

/-- The buffer that `get_data` and `get_size` tell. -/
def EncodedAttribute.current (a : EncodedAttribute) : Option Buffer :=
  (a.bufferArray[if a.index = 0 then a.bufferArray.length - 1 else a.index - 1]?).join

end Pool

section Encode

/-- The dimensions, big endian. -/
def header (width height : Nat) : List UInt8 :=
  [UInt8.ofNat (width >>> 8 &&& 0xFF),UInt8.ofNat (width &&& 0xFF),
    UInt8.ofNat (height >>> 8 &&& 0xFF),UInt8.ofNat (height &&& 0xFF)]

/-- The buffer that is written: the one that is there if it has the size, else a new one. -/
def allocated (fresh : Memory UInt8) (newSize : Nat) (b : Option Buffer) : Buffer :=
  match b with
  | none => ⟨fresh,newSize⟩
  | some b => if newSize ≠ b.size then ⟨fresh,newSize⟩ else b

/-- The dimensions and then the pixels are written. -/
def written (width height : Nat) (store : Memory UInt8 → Memory UInt8) (b : Buffer) : Buffer :=
  { b with memory := store (b.memory.write 0 (header width height)) }

/-- `encode_gray16` stores a sample at a time. -/
def storeGray16 (gray16 : List UInt16) (m : Memory UInt8) : Memory UInt8 :=
  (gray16.foldl (fun (s : Memory UInt8 × Nat) (sample : UInt16) =>
    (s.1.write s.2 [(sample >>> 8).toUInt8,(sample &&& 0xFF).toUInt8],s.2 + 2)) (m,4)).1

/-- The buffer at the index is replaced; the other encoders then go on to the next one. -/
def EncodedAttribute.put (a : EncodedAttribute) (format : String) (f : Option Buffer → Option Buffer) :
    EncodedAttribute where
  bufferArray := a.bufferArray.modify a.index f
  index := a.index
  format := some format
  index_lt := by simpa using a.index_lt

/-- `INC_INDEX` -/
def EncodedAttribute.incIndex (a : EncodedAttribute) : EncodedAttribute :=
  { a with
    index := if a.index + 1 = a.bufferArray.length then 0 else a.index + 1
    index_lt := by
      have := a.index_lt
      split <;> omega }

variable (fresh : Memory UInt8)

def encodeGray8 (gray8 : List UInt8) (width height : Nat) (a : EncodedAttribute) : EncodedAttribute :=
  (a.put "GRAY8" fun b =>
    some (written width height (fun m => m.write 4 (gray8.take (width * height)))
      (allocated fresh (width * height + 4) b))).incIndex

def encodeGray16 (gray16 : List UInt16) (width height : Nat) (a : EncodedAttribute) : EncodedAttribute :=
  (a.put "GRAY16" fun b =>
    some (written width height (storeGray16 (gray16.take (width * height)))
      (allocated fresh (width * height * 2 + 4) b))).incIndex

/-- Here the index stays. -/
def encodeRgb24 (rgb24 : List UInt8) (width height : Nat) (a : EncodedAttribute) : EncodedAttribute :=
  a.put "RGB24" fun b =>
    some (written width height (fun m => m.write 4 (rgb24.take (width * height * 3)))
      (allocated fresh (width * height * 3 + 4) b))

end Encode

section Images

/-- An image for an encoder that stores `bytes` bytes a pixel, whose sizes are no more than an `int` holds. -/
structure Image (β : Type) (values bytes : Nat) where
  width : Nat
  height : Nat
  pixels : List β
  wide : width < 65536
  high : height < 65536
  length : pixels.length = width * height * values
  fits : width * height * bytes + 4 < 2147483648

inductive Call
  | gray8 (image : Image UInt8 1 1)
  | gray16 (image : Image UInt16 1 2)
  | rgb24 (image : Image UInt8 3 3)

/-- Each call comes with what newly allocated memory holds. -/
def encode (a : EncodedAttribute) : Memory UInt8 × Call → EncodedAttribute
  | (fresh,.gray8 i) => encodeGray8 fresh i.pixels i.width i.height a
  | (fresh,.gray16 i) => encodeGray16 fresh i.pixels i.width i.height a
  | (fresh,.rgb24 i) => encodeRgb24 fresh i.pixels i.width i.height a

def sampleBytes (sample : UInt16) : List UInt8 := [(sample >>> 8).toUInt8,(sample &&& 0xFF).toUInt8]

/-- Each pixel followed by a 0 byte. -/
def padded : List UInt8 → List UInt8
  | r::g::b::pixels => r :: g :: b :: 0 :: padded pixels
  | _ => []

def Call.format : Call → String
  | .gray8 _ => "GRAY8"
  | .gray16 _ => "GRAY16"
  | .rgb24 _ => "RGB24"

/-- The bytes an image is stored as. -/
def Call.bytes : Call → List UInt8
  | .gray8 i => header i.width i.height ++ i.pixels
  | .gray16 i => header i.width i.height ++ i.pixels.flatMap sampleBytes
  | .rgb24 i => header i.width i.height ++ i.pixels

/-- A decoder of the format gives the image back. -/
def Call.DecodedFrom (attr : DeviceAttribute) : Call → Prop
  | .gray8 i => ∀ jpegDecode, decodeGray8 jpegDecode attr = .image i.width i.height i.pixels
  | .gray16 i => decodeGray16 attr = .image i.width i.height i.pixels
  | .rgb24 i => ∀ jpegDecode, decodeRgb32 jpegDecode attr = .image i.width i.height (padded i.pixels)

/-- A buffer holds an image. -/
def Stored (b : Option Buffer) (x : Memory UInt8 × Call) : Prop :=
  ∃ b', b = some b' ∧ b'.size = x.2.bytes.length ∧ b'.memory.bytes b'.size = x.2.bytes

/-- The buffers of the last images, the newest first. -/
def EncodedAttribute.last (a : EncodedAttribute) (n : Nat) : List (Option Buffer) :=
  Ring.walk a.bufferArray (prevIndex a.bufferArray.length a.index) n

end Images

section Bytes

theorem low_byte (x : Nat) : x &&& 255 = x % 256 := Nat.and_two_pow_sub_one_eq_mod x 8

theorem or_halves (x : Nat) : (x / 256) <<< 8 ||| (x % 256) = x := by
  rw [← Nat.shiftLeft_add_eq_or_of_lt (Nat.mod_lt x (by decide : 0 < 2^8)),Nat.shiftLeft_eq]
  omega

theorem sample_halves (s : UInt16) :
    (s >>> 8).toUInt8.toUInt16 <<< 8 ||| (s &&& 0xFF).toUInt8.toUInt16 = s := by
  apply UInt16.toNat_inj.mp
  have h : s.toNat < 65536 := s.toNat_lt
  have hhigh : s.toNat >>> 8 % 256 = s.toNat / 256 := by
    rw [Nat.shiftRight_eq_div_pow]
    omega
  have hshift : (s.toNat / 256) <<< 8 % 65536 = (s.toNat / 256) <<< 8 := by
    rw [Nat.shiftLeft_eq]
    omega
  have hsum := or_halves s.toNat
  simp [low_byte,hhigh,hshift,hsum]

theorem dimensions_header {w h : Nat} (hw : w < 65536) (hh : h < 65536) (pixels : List UInt8) :
    dimensions (header w h ++ pixels) = some (w,h) := by
  have hbyte : ∀ x < 65536, x >>> 8 % 256 = x / 256 := by
    intro x hx
    rw [Nat.shiftRight_eq_div_pow]
    omega
  have hw' : w / 256 % 256 = w / 256 := Nat.mod_eq_of_lt (by omega)
  have hh' : h / 256 % 256 = h / 256 := Nat.mod_eq_of_lt (by omega)
  simp [dimensions,header,low_byte,hbyte w hw,hbyte h hh,hw',hh',or_halves]

theorem length_header (w h : Nat) : (header w h).length = 4 := rfl

theorem length_sampleBytes (samples : List UInt16) : (samples.flatMap sampleBytes).length = samples.length * 2 := by
  induction samples with
  | nil => rfl
  | cons s samples ih =>
    rw [List.flatMap_cons,List.length_append,ih,List.length_cons,sampleBytes]
    simp only [List.length_cons,List.length_nil]
    omega

/-- The samples are stored one behind the other. -/
theorem foldl_samples (samples : List UInt16) (m : Memory UInt8) (before : List UInt8) :
    samples.foldl (fun (s : Memory UInt8 × Nat) (sample : UInt16) =>
      (s.1.write s.2 [(sample >>> 8).toUInt8,(sample &&& 0xFF).toUInt8],s.2 + 2))
      (m.write 0 before,before.length) =
      (m.write 0 (before ++ samples.flatMap sampleBytes),(before ++ samples.flatMap sampleBytes).length) := by
  induction samples generalizing before with
  | nil => simp
  | cons s samples ih =>
    have hwrite := Memory.write_append m 0 before (sampleBytes s)
    rw [Nat.zero_add] at hwrite
    have hlen : before.length + 2 = (before ++ sampleBytes s).length := by
      rw [List.length_append]
      rfl
    rw [List.foldl_cons,List.flatMap_cons,← List.append_assoc,← ih]
    dsimp only
    rw [← hlen,← hwrite]
    rfl

end Bytes

section Stored
variable {fresh : Memory UInt8}

theorem size_allocated (fresh : Memory UInt8) (newSize : Nat) (b : Option Buffer) :
    (allocated fresh newSize b).size = newSize := by
  unfold allocated
  cases b with
  | none => rfl
  | some b =>
    dsimp only
    split
    · rfl
    · rename_i h
      exact (Decidable.not_not.mp h).symm

/-- The call that a buffer is written by. -/
def Call.write (fresh : Memory UInt8) : Call → Option Buffer → Option Buffer
  | .gray8 i => fun b => some (written i.width i.height (fun m => m.write 4 (i.pixels.take (i.width * i.height)))
      (allocated fresh (i.width * i.height + 4) b))
  | .gray16 i => fun b => some (written i.width i.height (storeGray16 (i.pixels.take (i.width * i.height)))
      (allocated fresh (i.width * i.height * 2 + 4) b))
  | .rgb24 i => fun b => some (written i.width i.height (fun m => m.write 4 (i.pixels.take (i.width * i.height * 3)))
      (allocated fresh (i.width * i.height * 3 + 4) b))

/-- What a call writes does not depend on what was in the buffer. -/
theorem stored_write (c : Call) (b : Option Buffer) : Stored (c.write fresh b) (fresh,c) := by
  have hhead : ∀ (m : Memory UInt8) (w h : Nat) (content : List UInt8),
      (m.write 0 (header w h)).write 4 content = m.write 0 (header w h ++ content) :=
    fun m w h content => Memory.write_append m 0 (header w h) content
  have hstored : ∀ (b' : Buffer) (m : Memory UInt8), b'.size = c.bytes.length → b'.memory = m.write 0 c.bytes →
      Stored (some b') (fresh,c) := by
    intro b' m hsize hmem
    refine ⟨b',rfl,hsize,?_⟩
    rw [hsize,hmem]
    exact Memory.bytes_write m c.bytes
  cases c with
  | gray8 i =>
    have hlen : i.pixels.length = i.width * i.height := by rw [i.length,Nat.mul_one]
    have htake : i.pixels.take (i.width * i.height) = i.pixels := List.take_of_length_le (Nat.le_of_eq hlen)
    refine hstored _ (allocated fresh (i.width * i.height + 4) b).memory ?_ ?_
    · rw [written,size_allocated,Call.bytes,List.length_append,length_header,hlen,Nat.add_comm]
    · rw [written,htake]
      exact hhead _ _ _ _
  | gray16 i =>
    have hlen : i.pixels.length = i.width * i.height := by rw [i.length,Nat.mul_one]
    have htake : i.pixels.take (i.width * i.height) = i.pixels := List.take_of_length_le (Nat.le_of_eq hlen)
    refine hstored _ (allocated fresh (i.width * i.height * 2 + 4) b).memory ?_ ?_
    · rw [written,size_allocated,Call.bytes,List.length_append,length_header,length_sampleBytes,hlen,Nat.add_comm]
    · rw [written,htake,storeGray16]
      exact congrArg Prod.fst (foldl_samples i.pixels _ (header i.width i.height))
  | rgb24 i =>
    have htake : i.pixels.take (i.width * i.height * 3) = i.pixels := List.take_of_length_le (Nat.le_of_eq i.length)
    refine hstored _ (allocated fresh (i.width * i.height * 3 + 4) b).memory ?_ ?_
    · rw [written,size_allocated,Call.bytes,List.length_append,length_header,i.length,Nat.add_comm]
    · rw [written,htake]
      exact hhead _ _ _ _

end Stored

section Decoded

/-- The size that the decoder of the format computes is an `int`. -/
def Call.decodable : Call → Prop
  | .gray8 _ | .gray16 _ => True
  | .rgb24 i => i.width * i.height * 4 < 2147483648

theorem convert_header {β : Type} {w h : Nat} (hw : w < 65536) (hh : h < 65536) (content : List UInt8)
    {size : Nat → Nat → Nat} (hsize : size w h < 2147483648) {copy : Nat → Nat → Option (List β)} {data : List β}
    (hcopy : copy w h = some data) : convert (header w h ++ content) size copy = .image w h data := by
  unfold convert
  rw [dimensions_header hw hh]
  dsimp only
  rw [if_pos hsize,hcopy]

theorem turn_sample {raw pre post : List UInt8} (s : UInt16) {out : List UInt16}
    (h : pre ++ sampleBytes s ++ post = raw) :
    turnGray16 raw (pre.length,out) = some ((pre ++ sampleBytes s).length,out ++ [s]) := by
  subst h
  have h0 : (pre ++ sampleBytes s ++ post)[pre.length]? = some (s >>> 8).toUInt8 := by simp [sampleBytes]
  have h1 : (pre ++ sampleBytes s ++ post)[pre.length + 1]? = some (s &&& 0xFF).toUInt8 := by simp [sampleBytes]
  simp only [turnGray16,h0,h1,Option.bind_eq_bind,Option.bind_some,sample_halves,List.length_append]
  rfl

theorem turn_pixel {raw pre post : List UInt8} (r g b : UInt8) {out : List UInt8}
    (h : pre ++ [r,g,b] ++ post = raw) :
    turnRgb32 raw (pre.length,out) = some ((pre ++ [r,g,b]).length,out ++ [r,g,b,0]) := by
  subst h
  simp [turnRgb32]

/-- The pixels of a colour image, three bytes each. -/
theorem exists_pixels (n : Nat) (bytes : List UInt8) (h : bytes.length = n * 3) :
    ∃ pixels : List (UInt8 × UInt8 × UInt8), pixels.length = n ∧
      pixels.flatMap (fun p => [p.1,p.2.1,p.2.2]) = bytes ∧
      pixels.flatMap (fun p => [p.1,p.2.1,p.2.2,0]) = padded bytes := by
  induction n generalizing bytes with
  | zero =>
    rw [Nat.zero_mul,List.length_eq_zero_iff] at h
    subst h
    exact ⟨[],rfl,rfl,rfl⟩
  | succ n ih =>
    match bytes with
    | [] | [_] | [_,_] => simp only [List.length_cons,List.length_nil] at h; omega
    | r::g::b::bytes =>
      obtain ⟨pixels,hlen,hbytes,hpadded⟩ := ih bytes (by simp only [List.length_cons] at h; omega)
      refine ⟨(r,g,b) :: pixels,?_,?_,?_⟩
      · rw [List.length_cons,hlen]
      · rw [List.flatMap_cons,hbytes]
        rfl
      · rw [List.flatMap_cons,hpadded]
        rfl

theorem decodedFrom_bytes (c : Call) (hc : c.decodable) (isemptyFlag : Bool) :
    c.DecodedFrom (received c.format c.bytes isemptyFlag) := by
  cases c with
  | gray8 i =>
    intro jpegDecode
    have hlen : i.pixels.length = i.width * i.height := by rw [i.length,Nat.mul_one]
    have hfits := i.fits
    change convert (header i.width i.height ++ i.pixels) (fun w h => w * h)
      (copyGray8 (header i.width i.height ++ i.pixels)) = _
    have hall : 4 + i.width * i.height ≤ (header i.width i.height ++ i.pixels).length :=
      Nat.le_of_eq (by rw [List.length_append,length_header,hlen])
    have hcopy : copyGray8 (header i.width i.height ++ i.pixels) i.width i.height = some i.pixels := by
      rw [copyGray8,if_pos hall]
      exact congrArg some (List.take_of_length_le (Nat.le_of_eq hlen))
    exact convert_header i.wide i.high i.pixels (by omega) hcopy
  | gray16 i =>
    have hlen : i.pixels.length = i.height * i.width := by rw [i.length,Nat.mul_one,Nat.mul_comm]
    have hfits := i.fits
    have hturns := turns_chunks (fun _ s _ _ => turn_sample s) i.pixels (header i.width i.height) [] rfl
    have hsamples : [] ++ i.pixels.flatMap (fun s => [s]) = i.pixels := by simp
    rw [length_header,hlen,← turns_turns,hsamples] at hturns
    change convert (header i.width i.height ++ i.pixels.flatMap sampleBytes) (fun w h => w * h * 2)
      (fun w h => (turns (turns (turnGray16 (header i.width i.height ++ i.pixels.flatMap sampleBytes)) w) h
        (4,[])).map Prod.snd) = _
    exact convert_header i.wide i.high _ (by omega) (by rw [hturns]; rfl)
  | rgb24 i =>
    intro jpegDecode
    obtain ⟨pixels,hlen,hbytes,hpadded⟩ := exists_pixels (i.width * i.height) i.pixels i.length
    have hturns := turns_chunks (fun _ (p : UInt8 × UInt8 × UInt8) _ _ => turn_pixel p.1 p.2.1 p.2.2)
      pixels (header i.width i.height) [] rfl
    rw [length_header,hlen,Nat.mul_comm,← turns_turns,hbytes,hpadded] at hturns
    change convert (header i.width i.height ++ i.pixels) (fun w h => w * h * 4)
      (fun w h => (turns (turns (turnRgb32 (header i.width i.height ++ i.pixels)) w) h (4,[])).map Prod.snd) = _
    exact convert_header i.wide i.high _ hc (by rw [hturns]; rfl)

end Decoded

section Run

/-- Where the index stays the pool has one buffer, and the decoder's size is an `int`. -/
def Meets (bufEltNb : Nat) : Call → Prop
  | .gray8 _ | .gray16 _ => True
  | .rgb24 i => bufEltNb = 1 ∧ i.width * i.height * 4 < 2147483648

/-- `get_data`, `get_size` and `get_format` tell the image, and the decoder of the format gives it back. -/
structure Describes (a : EncodedAttribute) (x : Memory UInt8 × Call) : Prop where
  format : a.format = some x.2.format
  stored : Stored a.current x
  decoded : ∀ b, a.current = some b → ∀ isemptyFlag,
    x.2.DecodedFrom (received x.2.format (b.memory.bytes b.size) isemptyFlag)

/-- A call after a log of calls: the image is told, and the buffers of the images before it are as they were. -/
structure PoolRight (bufEltNb : Nat) (a : EncodedAttribute) (log : List (Memory UInt8 × Call))
    (x : Memory UInt8 × Call) : Prop where
  describes : Describes (encode a x) x
  unchanged : ∀ k < bufEltNb, (encode a x).last (k + 1) = (encode a x).current :: a.last k
  preceding : ∀ k ≤ bufEltNb, k ≤ log.length + 1 →
    List.Forall₂ Stored ((encode a x).last k) ((log ++ [x]).reverse.take k)

def EncodedAttribute.ring (a : EncodedAttribute) : Lib.Ring (Option Buffer) where
  cells := a.bufferArray
  insertElt := a.index
  nbElt := 0
  insert_lt := a.index_lt
  nb_le := Nat.zero_le _

variable {a : EncodedAttribute} {x : Memory UInt8 × Call}

theorem incIndex_single (h : a.bufferArray.length = 1) : a.incIndex = a := by
  have hidx : a.index = 0 := by
    have := a.index_lt
    omega
  unfold EncodedAttribute.incIndex
  cases a
  simp only at h hidx
  subst hidx
  simp [h]

theorem length_put (a : EncodedAttribute) (format : String) (f : Option Buffer → Option Buffer) :
    (a.put format f).bufferArray.length = a.bufferArray.length := List.length_modify ..

/-- With an encoder that leaves the index, a pool of one buffer is none the worse. -/
theorem encode_eq (hm : Meets a.bufferArray.length x.2) :
    encode a x = (a.put x.2.format (x.2.write x.1)).incIndex := by
  obtain ⟨fresh,c⟩ := x
  cases c with
  | gray8 i => rfl
  | gray16 i => rfl
  | rgb24 i => exact (incIndex_single ((length_put _ _ _).trans hm.1)).symm

theorem last_encode (hm : Meets a.bufferArray.length x.2) {k : Nat} (hk : k < a.bufferArray.length) :
    (encode a x).last (k + 1) = x.2.write x.1 a.ring.slot :: a.last k := by
  have hring := Lib.Ring.recent_store a.ring (x.2.write x.1) k hk
  have hidx : ((a.put x.2.format (x.2.write x.1)).incIndex).index = (a.ring.store (x.2.write x.1)).insertElt := by
    change (if a.index + 1 = _ then 0 else a.index + 1) = nextIndex a.bufferArray.length a.index
    rw [length_put]
    rfl
  rw [encode_eq hm]
  unfold EncodedAttribute.last
  rw [hidx]
  exact hring

theorem last_one (a : EncodedAttribute) : a.last 1 = [a.current] := by
  have hlt := a.index_lt
  have hidx : prevIndex a.bufferArray.length a.index =
      if a.index = 0 then a.bufferArray.length - 1 else a.index - 1 := by
    unfold prevIndex
    split <;> rfl
  have hin : prevIndex a.bufferArray.length a.index < a.bufferArray.length := Ring.prevIndex_lt hlt
  unfold EncodedAttribute.last EncodedAttribute.current
  rw [← hidx,Ring.walk,List.getElem?_eq_getElem hin]
  rfl

theorem current_encode (hm : Meets a.bufferArray.length x.2) :
    (encode a x).current = x.2.write x.1 a.ring.slot := by
  have hpos : 0 < a.bufferArray.length := Nat.lt_of_le_of_lt (Nat.zero_le _) a.index_lt
  have hlast := last_encode hm hpos
  rw [Nat.zero_add,last_one] at hlast
  exact (List.cons.inj hlast).1

theorem length_encode (a : EncodedAttribute) (x : Memory UInt8 × Call) :
    (encode a x).bufferArray.length = a.bufferArray.length := by
  obtain ⟨fresh,c⟩ := x
  cases c with
  | gray8 i => exact length_put a "GRAY8" _
  | gray16 i => exact length_put a "GRAY16" _
  | rgb24 i => exact length_put a "RGB24" _

theorem describes_encode (hm : Meets a.bufferArray.length x.2) : Describes (encode a x) x := by
  have hcur := current_encode hm
  have hstored : Stored (encode a x).current x := by
    rw [hcur]
    exact stored_write x.2 _
  refine ⟨?_,hstored,?_⟩
  · rw [encode_eq hm]
    rfl
  · intro b hb isemptyFlag
    obtain ⟨b',hb',_,hbytes⟩ := hstored
    cases hb.symm.trans hb'
    rw [hbytes]
    refine decodedFrom_bytes x.2 ?_ isemptyFlag
    cases hc : x.2 with
    | gray8 i => trivial
    | gray16 i => trivial
    | rgb24 i =>
      rw [hc] at hm
      exact hm.2

theorem length_run (a : EncodedAttribute) (log : List (Memory UInt8 × Call)) :
    (log.foldl encode a).bufferArray.length = a.bufferArray.length := by
  induction log generalizing a with
  | nil => rfl
  | cons x log ih => rw [List.foldl_cons,ih,length_encode]

/-- The last images are in the last buffers. -/
theorem last_run (a : EncodedAttribute) (log : List (Memory UInt8 × Call))
    (hm : ∀ x ∈ log, Meets a.bufferArray.length x.2) (k : Nat) (hk : k ≤ a.bufferArray.length) (hl : k ≤ log.length) :
    List.Forall₂ Stored ((log.foldl encode a).last k) (log.reverse.take k) := by
  induction log using List.reverseRecOn generalizing k with
  | nil =>
    obtain rfl : k = 0 := Nat.le_zero.mp hl
    exact .nil
  | append_singleton log x ih =>
    cases k with
    | zero => exact .nil
    | succ k =>
      have hx : Meets (log.foldl encode a).bufferArray.length x.2 := by
        rw [length_run]
        exact hm x (List.mem_append_right log List.mem_cons_self)
      have hk' : k < (log.foldl encode a).bufferArray.length := by
        rw [length_run]
        exact hk
      rw [List.length_append,List.length_singleton] at hl
      rw [List.foldl_append,List.foldl_cons,List.foldl_nil,last_encode hx hk',List.reverse_append,
        List.reverse_singleton,List.singleton_append,List.take_succ_cons]
      refine .cons (stored_write x.2 _) (ih (fun y hy => hm y (List.mem_append_left _ hy)) k (by omega) (by omega))

/-- Images encoded one after the other can be read back from the pool, if each call meets what the code needs. -/
theorem pool_right (bufEltNb : Nat) (h : 0 < bufEltNb) (log : List (Memory UInt8 × Call)) (x : Memory UInt8 × Call)
    (hm : ∀ y ∈ log ++ [x], Meets bufEltNb y.2) :
    PoolRight bufEltNb (log.foldl encode (make bufEltNb h)) log x := by
  have hlen : (make bufEltNb h).bufferArray.length = bufEltNb := List.length_replicate
  have hrun : (log.foldl encode (make bufEltNb h)).bufferArray.length = bufEltNb := (length_run _ log).trans hlen
  have hx : Meets (log.foldl encode (make bufEltNb h)).bufferArray.length x.2 := by
    rw [hrun]
    exact hm x (List.mem_append_right log List.mem_cons_self)
  refine ⟨describes_encode hx,?_,?_⟩
  · intro k hk
    rw [last_encode hx (hrun.symm ▸ hk),current_encode hx]
  · intro k hk hl
    have hlast := last_run (make bufEltNb h) (log ++ [x]) (by rwa [hlen]) k (by rwa [hlen])
      (by rw [List.length_append]; exact hl)
    rwa [List.foldl_append] at hlast

/-- A red pixel. -/
def redPixel : Image UInt8 3 3 where
  width := 1
  height := 1
  pixels := [255,0,0]
  wide := by decide
  high := by decide
  length := by decide
  fits := by decide

def greyPixel : Image UInt8 1 1 where
  width := 1
  height := 1
  pixels := [7]
  wide := by decide
  high := by decide
  length := by decide
  fits := by decide

theorem pool_right_grey : PoolRight 2 ([(fun _ => 0,.gray8 greyPixel)].foldl encode (make 2 (by decide)))
    [(fun _ => 0,.gray8 greyPixel)] (fun _ => 0,.gray8 greyPixel) :=
  pool_right 2 (by decide) [(fun _ => 0,.gray8 greyPixel)] (fun _ => 0,.gray8 greyPixel)
    (fun y hy => by
      have hy : y = (fun _ => 0,.gray8 greyPixel) := by simpa using hy
      rw [hy]
      trivial)

/-- After a colour image a pool of two tells the buffer before, which is null. -/
theorem colour_not_told : ¬Describes (encode (make 2 (by decide)) (fun _ => 0,.rgb24 redPixel))
    (fun _ => 0,.rgb24 redPixel) := by
  intro h
  obtain ⟨b,hb,_⟩ := h.stored
  cases hb

end Run

end CppTango.Device.Encoded
