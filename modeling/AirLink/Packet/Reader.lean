/-
  Reading the fields of a message from the front of its bytes.

  A reader consumes a prefix or says what is wrong with it; each field that
  was written is read back from in front of anything (`read16_be16`,
  `read32_be32`).
-/
import AirLink.Hex
import AirLink.Bytes

namespace AirLink

/-- The three families of link messages, by the stage they belong to. -/
inductive Family where
  | pairing
  | handshake
  | upkeep
deriving DecidableEq, Repr

/-- The name of a family's kinds in error texts. -/
def Family.kindName : Family → String
  | pairing => "UnlinkedHeader"
  | handshake => "LinkingHeader"
  | upkeep => "LinkedHeader"

/-- What is wrong with the bytes of a message. -/
inductive ReadRefusal where
  /-- no bytes at all -/
  | empty
  /-- fewer bytes left than the next field has -/
  | short (needed available : Nat)
  /-- a header that belongs to no family -/
  | unknownFamily (header : UInt8)
  /-- a header that the family has no message for -/
  | unknownKind (family : Family) (header : UInt8)
  | fragmentNumber (index count : UInt8)
  | fragmentSize (size : Nat)
  | subSeconds (value : UInt32)
deriving DecidableEq, Repr

def ReadRefusal.message : ReadRefusal → String
  | empty => "empty link message"
  | short n m =>
    s!"Not enough bytes remaining in buffer to read value (requested {n} but only {m} available)"
  | unknownFamily h => "unknown link message header 0x" ++ Bytes.toHex [h]
  | unknownKind f h =>
    "No discriminant in enum `" ++ f.kindName ++ s!"` matches the value `{h.toNat}`"
  | fragmentNumber i n => s!"invalid identity fragment {i.toNat} of {n.toNat}"
  | fragmentSize n => s!"identity fragment of {n} bytes"
  | subSeconds v => s!"sub-second field out of range: {v.toNat}"

instance : ToString ReadRefusal := ⟨ReadRefusal.message⟩

/-- Reads from the front of a byte string and leaves the rest. -/
abbrev Reader (α : Type) := Bytes → Except ReadRefusal (α × Bytes)

/-- Reads a byte. -/
def read8 : Reader UInt8
  | a :: rest => .ok (a, rest)
  | [] => .error (.short 1 0)

/-- Reads a 16-bit word. -/
def read16 : Reader UInt16
  | a :: b :: rest => .ok (word16 a b, rest)
  | bs => .error (.short 2 bs.length)

/-- Reads a 32-bit word. -/
def read32 : Reader UInt32
  | a :: b :: c :: d :: rest => .ok (word32 a b c d, rest)
  | bs => .error (.short 4 bs.length)

@[simp] theorem read16_be16 (w : UInt16) (rest : Bytes) :
    read16 (be16 w ++ rest) = .ok (w, rest) := by
  simp only [be16, List.cons_append, List.nil_append, read16, word16_be16]

@[simp] theorem read32_be32 (w : UInt32) (rest : Bytes) :
    read32 (be32 w ++ rest) = .ok (w, rest) := by
  simp only [be32, List.cons_append, List.nil_append, read32, word32_be32]

/-! ## What has been read -/

variable {bs rest : Bytes}

theorem read8_eq_ok {a : UInt8} : read8 bs = .ok (a, rest) ↔ bs = a :: rest := by
  cases bs <;> simp [read8]

theorem read16_eq_ok {w : UInt16} : read16 bs = .ok (w, rest) ↔ bs = be16 w ++ rest := by
  refine ⟨fun h => ?_, fun h => h ▸ read16_be16 w rest⟩
  unfold read16 at h
  split at h
  · cases h
    rw [be16_word16]
    rfl
  · cases h

theorem read32_eq_ok {w : UInt32} : read32 bs = .ok (w, rest) ↔ bs = be32 w ++ rest := by
  refine ⟨fun h => ?_, fun h => h ▸ read32_be32 w rest⟩
  unfold read32 at h
  split at h
  · cases h
    rw [be32_word32]
    rfl
  · cases h

end AirLink
