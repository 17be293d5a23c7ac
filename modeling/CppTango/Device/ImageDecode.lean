import CppTango.Data
import CppTango.Lib.Loops

namespace CppTango.Device.Encoded

open CppTango.Lib

structure DevEncoded where
  encodedFormat : String
  encodedData : List UInt8
deriving DecidableEq, Repr

/-- What the decoders look at of a received attribute: whether one of the other sequences holds data, and the sequence
of encoded data unless its pointer is null. -/
structure DeviceAttribute where
  otherData : Bool
  encodedSeq : Option (List DevEncoded)
  isemptyFlag : Bool
deriving DecidableEq, Repr

/-- What a decoder comes to: pixels, an exception, a read outside of what was received, or a size that is no `int`. -/
inductive Decoded (β : Type)
  | image (width height : Nat) (data : List β)
  | threw (errors : DevErrorList)
  | outside
  | overflow
deriving DecidableEq

section Decode
variable {β : Type}

def thrown (reason desc origin : String) : Decoded β := .threw [⟨reason,.err,desc,origin⟩]

def DeviceAttribute.isEmpty (attr : DeviceAttribute) : Bool :=
  !attr.otherData && !attr.encodedSeq.any (· ≠ [])

/-- The encoded data of an attribute, for a decoder. -/
def encData (attr : DeviceAttribute) (origin : String) (decode : DevEncoded → Decoded β) : Decoded β :=
  if attr.isEmpty then
    if attr.isemptyFlag then
      thrown "API_EmptyDeviceAttribute" "cannot extract, no data in DeviceAttribute object " "DeviceAttribute::is_empty"
    else thrown "API_WrongFormat" "Attribute contains no data" origin
  else
    match attr.encodedSeq with
    | none =>
      thrown "API_IncompatibleAttrArgumentType" "Cannot extract, data in DeviceAttribute object is not DevEncoded"
        origin
    | some [] => .outside
    | some (e::_) => decode e

/-- Width and height, read from the first four bytes. -/
def dimensions (raw : List UInt8) : Option (Nat × Nat) := do
  let wh ← raw[0]?
  let wl ← raw[1]?
  let hh ← raw[2]?
  let hl ← raw[3]?
  return (wh.toNat <<< 8 ||| wl.toNat,hh.toNat <<< 8 ||| hl.toNat)

/-- The dimensions are read, the size of the memory is computed as an `int` and the pixels are copied. -/
def convert (raw : List UInt8) (size : Nat → Nat → Nat) (copy : Nat → Nat → Option (List β)) : Decoded β :=
  match dimensions raw with
  | none => .outside
  | some (width,height) =>
    if size width height < 2147483648 then
      match copy width height with
      | none => .outside
      | some data => .image width height data
    else .overflow

/-- `memcpy` from the byte behind the dimensions. -/
def copyGray8 (raw : List UInt8) (width height : Nat) : Option (List UInt8) :=
  if 4 + width * height ≤ raw.length then some ((raw.drop 4).take (width * height)) else none

def turnGray16 (raw : List UInt8) (s : Nat × List UInt16) : Option (Nat × List UInt16) := do
  let hh ← raw[s.1]?
  let hl ← raw[s.1 + 1]?
  return (s.1 + 2,s.2 ++ [hh.toUInt16 <<< 8 ||| hl.toUInt16])

def turnRgb32 (raw : List UInt8) (s : Nat × List UInt8) : Option (Nat × List UInt8) := do
  let r ← raw[s.1]?
  let g ← raw[s.1 + 1]?
  let b ← raw[s.1 + 2]?
  return (s.1 + 3,s.2 ++ [r,g,b,0])

def decodeGray8 (jpegDecode : List UInt8 → Decoded UInt8) (attr : DeviceAttribute) : Decoded UInt8 :=
  encData attr "EncodedAttribute::decode_gray8" fun e =>
    if e.encodedFormat = "GRAY8" then convert e.encodedData (fun w h => w * h) (copyGray8 e.encodedData)
    else if e.encodedFormat = "JPEG_GRAY8" then jpegDecode e.encodedData
    else thrown "API_WrongFormat" "Not a grayscale 8bit format" "EncodedAttribute::decode_gray8"

def decodeGray16 (attr : DeviceAttribute) : Decoded UInt16 :=
  encData attr "EncodedAttribute::decode_gray16" fun e =>
    if e.encodedFormat = "GRAY16" then
      convert e.encodedData (fun w h => w * h * 2)
        (fun w h => (turns (turns (turnGray16 e.encodedData) w) h (4,[])).map Prod.snd)
    else thrown "API_WrongFormat" "Not a grayscale 16 bits format" "EncodedAttribute::decode_gray16"

def decodeRgb32 (jpegDecode : List UInt8 → Decoded UInt8) (attr : DeviceAttribute) : Decoded UInt8 :=
  encData attr "EncodedAttribute::decode_rgb32" fun e =>
    if e.encodedFormat = "RGB24" then
      convert e.encodedData (fun w h => w * h * 4)
        (fun w h => (turns (turns (turnRgb32 e.encodedData) w) h (4,[])).map Prod.snd)
    else if e.encodedFormat = "JPEG_RGB" then jpegDecode e.encodedData
    else thrown "API_WrongFormat" "Not a color format" "EncodedAttribute::decode_rgb32"

end Decode

section Safe
variable {β : Type}

/-- An exception, or an image of `cells` values a pixel. -/
def Safe (cells : Nat) : Decoded β → Prop
  | .image width height data => data.length = width * height * cells
  | .threw _ => True
  | .outside => False
  | .overflow => False

/-- The formats without compression. -/
inductive RawFormat
  | gray8 | gray16 | rgb24
deriving DecidableEq, Repr

namespace RawFormat

def format : RawFormat → String
  | gray8 => "GRAY8"
  | gray16 => "GRAY16"
  | rgb24 => "RGB24"

/-- The bytes of a pixel. -/
def bytes : RawFormat → Nat
  | gray8 => 1
  | gray16 => 2
  | rgb24 => 3

/-- The factor of the size that the decoder computes. -/
def factor : RawFormat → Nat
  | gray8 => 1
  | gray16 => 2
  | rgb24 => 4

end RawFormat

/-- An attribute received with encoded data. -/
def received (format : String) (data : List UInt8) (isemptyFlag : Bool) : DeviceAttribute :=
  { otherData := false, encodedSeq := some [⟨format,data⟩], isemptyFlag := isemptyFlag }

/-- The dimensions are there, and so are the pixels they announce; the decoder's size is an `int`. -/
def Fits (f : RawFormat) (data : List UInt8) : Prop :=
  ∃ width height, dimensions data = some (width,height) ∧ width * height * f.factor < 2147483648 ∧
    4 + width * height * f.bytes ≤ data.length

theorem encData_received (format : String) (data : List UInt8) (flag : Bool) (origin : String)
    (decode : DevEncoded → Decoded β) :
    encData (received format data flag) origin decode = decode ⟨format,data⟩ := by
  rfl

theorem dimensions_isSome (raw : List UInt8) : (dimensions raw).isSome = true ↔ 4 ≤ raw.length := by
  match raw with
  | [] | [_] | [_,_] | [_,_,_] => simp [dimensions]
  | _::_::_::_::_ => simp [dimensions]

/-- A copy that succeeds just where its bytes are there, and then fills its pixels. -/
structure Copies (raw : List UInt8) (bytes cells : Nat) (copy : Nat → Nat → Option (List β)) : Prop where
  inside : ∀ w h, 4 + w * h * bytes ≤ raw.length → ∃ data, data.length = w * h * cells ∧ copy w h = some data
  outside : ∀ w h, 4 ≤ raw.length → raw.length < 4 + w * h * bytes → copy w h = none

theorem convert_safe_iff {raw : List UInt8} {bytes f cells : Nat} {copy : Nat → Nat → Option (List β)}
    (hc : Copies raw bytes cells copy) : Safe cells (convert raw (fun w h => w * h * f) copy) ↔
      ∃ width height, dimensions raw = some (width,height) ∧ width * height * f < 2147483648 ∧
        4 + width * height * bytes ≤ raw.length := by
  unfold convert
  cases hd : dimensions raw with
  | none => simp [Safe]
  | some d =>
    obtain ⟨w,h⟩ := d
    have h4 : 4 ≤ raw.length := (dimensions_isSome raw).mp (by rw [hd]; rfl)
    have hex : (∃ width height, some (w,h) = some (width,height) ∧ width * height * f < 2147483648 ∧
        4 + width * height * bytes ≤ raw.length) ↔ w * h * f < 2147483648 ∧ 4 + w * h * bytes ≤ raw.length := by
      simp
    rw [hex]
    dsimp only
    split
    · rename_i hsize
      rw [and_iff_right hsize]
      rcases Nat.lt_or_ge raw.length (4 + w * h * bytes) with hout | hin
      · rw [hc.outside w h h4 hout]
        exact iff_of_false id (by omega)
      · obtain ⟨data,hlen,hcopy⟩ := hc.inside w h hin
        rw [hcopy]
        exact iff_of_true hlen hin
    · rename_i hsize
      exact iff_of_false id (fun h => hsize h.1)

theorem copies_gray8 (raw : List UInt8) : Copies raw 1 1 (copyGray8 raw) := by
  constructor
  · intro w h hin
    rw [Nat.mul_one] at hin
    refine ⟨(raw.drop 4).take (w * h),?_,if_pos hin⟩
    rw [List.length_take,List.length_drop]
    omega
  · intro w h _ hout
    rw [Nat.mul_one] at hout
    exact if_neg (Nat.not_le.mpr hout)

theorem reads_gray16 (raw : List UInt8) : Reads raw 2 1 (turnGray16 raw) := by
  constructor
  · intro src out hin
    have h0 : src < raw.length := by omega
    have h1 : src + 1 < raw.length := by omega
    exact ⟨[raw[src].toUInt16 <<< 8 ||| raw[src + 1].toUInt16],rfl,by simp [turnGray16,h0,h1]⟩
  · intro src out hout
    have h1 : raw[src + 1]? = none := List.getElem?_eq_none (by omega)
    simp [turnGray16,h1]

theorem reads_rgb32 (raw : List UInt8) : Reads raw 3 4 (turnRgb32 raw) := by
  constructor
  · intro src out hin
    have h0 : src < raw.length := by omega
    have h1 : src + 1 < raw.length := by omega
    have h2 : src + 2 < raw.length := by omega
    exact ⟨[raw[src],raw[src + 1],raw[src + 2],0],rfl,by simp [turnRgb32,h0,h1,h2]⟩
  · intro src out hout
    have h2 : raw[src + 2]? = none := List.getElem?_eq_none (by omega)
    simp [turnRgb32,h2]

/-- Two loops over rows and columns, from the byte behind the dimensions. -/
theorem copies_turns {raw : List UInt8} {k m : Nat} {step : Nat × List β → Option (Nat × List β)}
    (h : Reads raw k m step) :
    Copies raw k m (fun width height => (turns (turns step width) height (4,[])).map Prod.snd) := by
  constructor
  · intro w h' hin
    rw [Nat.mul_comm w] at hin
    obtain ⟨data,hlen,hturns⟩ := turns_inside h (h' * w) 4 [] hin
    refine ⟨data,?_,?_⟩
    · rw [hlen,Nat.mul_comm h']
    · rw [turns_turns,hturns]
      rfl
  · intro w h' h4 hout
    rw [Nat.mul_comm w] at hout
    rw [turns_turns,turns_outside h (h' * w) 4 [] h4 hout]
    rfl

end Safe

section Received
variable (jpegDecode : List UInt8 → Decoded UInt8) (f : RawFormat) (data : List UInt8) (isemptyFlag : Bool)

/-- A decoder is safe just where the image fits what has been received, unless it refuses the format. -/
theorem decode_safe_iff :
    (Safe 1 (decodeGray8 jpegDecode (received f.format data isemptyFlag)) ↔ (f = .gray8 → Fits f data)) ∧
    (Safe 1 (decodeGray16 (received f.format data isemptyFlag)) ↔ (f = .gray16 → Fits f data)) ∧
    (Safe 4 (decodeRgb32 jpegDecode (received f.format data isemptyFlag)) ↔ (f = .rgb24 → Fits f data)) := by
  have hgray8 := convert_safe_iff (f := 1) (copies_gray8 data)
  have hgray16 := convert_safe_iff (f := 2) (copies_turns (reads_gray16 data))
  have hrgb32 := convert_safe_iff (f := 4) (copies_turns (reads_rgb32 data))
  simp only [Nat.mul_one] at hgray8
  cases f with
  | gray8 =>
    refine ⟨?_,?_,?_⟩
    · rw [forall_prop_of_true rfl,Fits]
      change Safe 1 (convert data (fun w h => w * h) (copyGray8 data)) ↔ _
      simpa only [RawFormat.factor,RawFormat.bytes,Nat.mul_one] using hgray8
    · simp [decodeGray16,encData_received,RawFormat.format,thrown,Safe]
    · simp [decodeRgb32,encData_received,RawFormat.format,thrown,Safe]
  | gray16 =>
    refine ⟨?_,?_,?_⟩
    · simp [decodeGray8,encData_received,RawFormat.format,thrown,Safe]
    · rw [forall_prop_of_true rfl,Fits]
      exact hgray16
    · simp [decodeRgb32,encData_received,RawFormat.format,thrown,Safe]
  | rgb24 =>
    refine ⟨?_,?_,?_⟩
    · simp [decodeGray8,encData_received,RawFormat.format,thrown,Safe]
    · simp [decodeGray16,encData_received,RawFormat.format,thrown,Safe]
    · rw [forall_prop_of_true rfl,Fits]
      exact hrgb32

/-- Of an empty message the first byte is read. -/
theorem read_behind_empty : ¬Safe 1 (decodeGray8 (fun _ => .outside) (received "GRAY8" [] true)) := by
  intro h
  exact h

end Received

end CppTango.Device.Encoded
