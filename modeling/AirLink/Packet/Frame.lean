/-
  The layout of a packet on air:

    0  tag (4 bytes)          authenticates everything after the id
    4  rolling id (2 bytes)   the masked packet counter, in the clear
    6  port (1 byte)          encrypted
    7  payload (0 to 25)      encrypted

  A `Frame` has these parts as fields, and its size bounds in its type, so a
  frame is 7 to 32 bytes long (`Frame.size_toBytes`).  Reading the bytes of a
  frame gives the frame back (`Frame.ofBytes_toBytes`), and no other bytes do
  (`Frame.toBytes_of_ofBytes`).
-/
import AirLink.Bytes

namespace AirLink

/-- Bytes before the payload. -/
def headerSize : Nat := 7

/-- The longest packet. -/
def maxPacketSize : Nat := 32

/-- The longest payload. -/
def maxPayloadSize : Nat := 25

/-- The port of the link's own messages. -/
def linkPort : UInt8 := 0xFF

/-- A packet as it goes on air. -/
structure Frame where
  tag : Block 4
  rollingId : UInt16
  /-- port and payload -/
  sealed : Bytes
  sealed_pos : 0 < sealed.length
  sealed_le : sealed.length ≤ maxPayloadSize + 1
deriving DecidableEq

/-- Why bytes are no packet. -/
inductive SizeRefusal where
  | payload (size : Nat)
  | packet (size : Nat)
deriving DecidableEq, Repr

def SizeRefusal.message : SizeRefusal → String
  | payload n => s!"payload of {n} bytes exceeds the maximum of {maxPayloadSize}"
  | packet n => s!"packet size {n} outside {headerSize}..={maxPacketSize}"

instance : ToString SizeRefusal := ⟨SizeRefusal.message⟩

namespace Frame

/-- Bytes on air. -/
def size (f : Frame) : Nat := f.sealed.length + 6

def payloadSize (f : Frame) : Nat := f.sealed.length - 1

def toBytes (f : Frame) : Bytes := f.tag.toList ++ be16 f.rollingId ++ f.sealed

/-- A frame of zeros for a payload of the given size. -/
def blank (payloadSize : Nat) : Except SizeRefusal Frame :=
  if h : payloadSize ≤ maxPayloadSize then
    .ok ⟨zeroBlock 4, 0, List.replicate (payloadSize + 1) 0, by simp, by simp; omega⟩
  else .error (.payload payloadSize)

/-- The frame that received bytes form. -/
def ofBytes (bs : Bytes) : Except SizeRefusal Frame :=
  if h : headerSize ≤ bs.length ∧ bs.length ≤ maxPacketSize then
    .ok
      { tag := Bytes.block 4 bs
        rollingId := word16 (bs.getD 4 0) (bs.getD 5 0)
        sealed := bs.drop 6
        sealed_pos := by simp [headerSize] at h ⊢; omega
        sealed_le := by simp [maxPacketSize, maxPayloadSize] at h ⊢; omega }
  else .error (.packet bs.length)

/-- Flips bits of port and payload, as far as the mask reaches. -/
def xorSealed (f : Frame) (mask : Bytes) : Frame :=
  { f with
    sealed := Bytes.xor f.sealed mask ++ f.sealed.drop mask.length
    sealed_pos := by have := f.sealed_pos; simp [Bytes.xor]; omega
    sealed_le := by have := f.sealed_le; simp [Bytes.xor]; omega }

theorem length_toBytes (f : Frame) : f.toBytes.length = f.size := by
  simp [toBytes, size]
  omega

/-- A frame is as long as a packet may be. -/
theorem size_toBytes (f : Frame) :
    headerSize ≤ f.toBytes.length ∧ f.toBytes.length ≤ maxPacketSize := by
  have := f.sealed_pos
  have := f.sealed_le
  simp only [length_toBytes, size, headerSize, maxPacketSize, maxPayloadSize] at *
  omega

theorem size_lt (f : Frame) : f.size < 256 := by
  have := f.sealed_le
  simp only [size, maxPayloadSize] at *
  omega

/-- The tag comes first. -/
theorem take_toBytes (f : Frame) : f.toBytes.take 4 = f.tag.toList := by
  rw [toBytes, List.append_assoc]
  exact List.take_left' (by simp)

theorem drop_toBytes (f : Frame) : f.toBytes.drop 4 = be16 f.rollingId ++ f.sealed := by
  rw [toBytes, List.append_assoc]
  exact List.drop_left' (by simp)

/-- Bytes of a packet's size form a frame. -/
theorem exists_ofBytes {bs : Bytes} (h : headerSize ≤ bs.length ∧ bs.length ≤ maxPacketSize) :
    ∃ f, ofBytes bs = .ok f := by
  unfold ofBytes
  rw [dif_pos h]
  exact ⟨_, rfl⟩

/-- Reading the bytes of a frame gives the frame back. -/
theorem ofBytes_toBytes (f : Frame) : ofBytes f.toBytes = .ok f := by
  have h := f.size_toBytes
  obtain ⟨⟨⟨l⟩, hl⟩, id, body, h₁, h₂⟩ := f
  obtain ⟨a, b, c, d, rfl⟩ : ∃ a b c d, l = [a, b, c, d] := by
    match l, hl with
    | [a, b, c, d], _ => exact ⟨a, b, c, d, rfl⟩
  simp only [ofBytes, h, and_self, ↓reduceDIte, Except.ok.injEq, Frame.mk.injEq]
  refine ⟨?_, word16_be16 id, rfl⟩
  ext i hi
  have : i = 0 ∨ i = 1 ∨ i = 2 ∨ i = 3 := by omega
  rcases this with rfl | rfl | rfl | rfl <;> rfl

/-- The frame that bytes form has these bytes. -/
theorem toBytes_of_ofBytes {bs : Bytes} {f : Frame} (h : ofBytes bs = .ok f) : f.toBytes = bs := by
  unfold ofBytes at h
  split at h
  case isTrue hsize =>
    cases h
    match bs, hsize with
    | a :: b :: c :: d :: high :: low :: rest, _ =>
      show [a, b, c, d] ++ be16 (word16 high low) ++ rest = _
      rw [be16_word16]
      rfl
  case isFalse => cases h

end Frame
end AirLink
