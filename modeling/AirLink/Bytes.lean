/-
  Byte strings, fixed-size blocks and big-endian numbers.

  `Bytes` is what goes over the air and into a hash; a `Block n` has exactly
  `n` bytes (keys, digests, tags).  `be16` and `be32` write a word with its
  most significant byte first, `word16` and `word32` read it back
  (`word16_be16`, `word32_be32`).
-/
namespace AirLink

/-- A byte string. -/
abbrev Bytes := List UInt8

/-- Exactly `n` bytes. -/
abbrev Block (n : Nat) := Vector UInt8 n

/-- The block of `n` zero bytes. -/
def zeroBlock (n : Nat) : Block n := Vector.replicate n 0

namespace Bytes

/-- The first `n` bytes as a block, filled up with zeros. -/
def block (n : Nat) (bs : Bytes) : Block n := Vector.ofFn fun i => bs.getD i 0

/-- A block of just as many bytes has these bytes. -/
theorem toList_block {n : Nat} {bs : Bytes} (h : bs.length = n) : (bs.block n).toList = bs := by
  subst h
  apply List.ext_getElem
  · simp
  · intro i hi hi'
    simp [block]

theorem block_inj {n : Nat} {a b : Bytes} (ha : a.length = n) (hb : b.length = n) :
    a.block n = b.block n ↔ a = b := by
  refine ⟨fun h => ?_, fun h => h ▸ rfl⟩
  rw [← toList_block ha, ← toList_block hb, h]

/-- The bytes of a text in its encoding on the wire. -/
def ofText (s : String) : Bytes := s.toUTF8.toList

/-- Bytewise exclusive or, as long as both strings last. -/
def xor (a b : Bytes) : Bytes := List.zipWith (· ^^^ ·) a b

/-- The number that the bytes spell, most significant byte first. -/
def toNat (bs : Bytes) : Nat := bs.foldl (fun n b => n * 256 + b.toNat) 0

/-- The `len` low bytes of a number, most significant byte first. -/
def ofNat : (len n : Nat) → Bytes
  | 0, _ => []
  | len + 1, n => ofNat len (n / 256) ++ [UInt8.ofNat n]

@[simp] theorem length_ofNat (len n : Nat) : (ofNat len n).length = len := by
  induction len generalizing n with
  | zero => rfl
  | succ len ih => simp [ofNat, ih]

end Bytes

/-- A block cut to its first `m` bytes. -/
def Block.take {n : Nat} (m : Nat) (b : Block n) : Block m := Bytes.block m b.toList

/-- Under one mask different blocks stay different. -/
theorem Block.xor_inj {n : Nat} {a b mask : Block n} :
    Vector.zipWith (· ^^^ ·) a mask = Vector.zipWith (· ^^^ ·) b mask ↔ a = b := by
  refine ⟨fun h => ?_, fun h => h ▸ rfl⟩
  ext i hi : 1
  have hi' := congrArg (·[i]) h
  simpa using hi'

/-! ## Words -/

/-- A 16-bit word, most significant byte first. -/
def be16 (w : UInt16) : Bytes := [UInt8.ofNat (w.toNat / 256), UInt8.ofNat w.toNat]

/-- A 32-bit word, most significant byte first. -/
def be32 (w : UInt32) : Bytes :=
  [UInt8.ofNat (w.toNat / 16777216), UInt8.ofNat (w.toNat / 65536), UInt8.ofNat (w.toNat / 256),
    UInt8.ofNat w.toNat]

/-- The 16-bit word with the given bytes, most significant first. -/
def word16 (a b : UInt8) : UInt16 := UInt16.ofNat (a.toNat * 256 + b.toNat)

/-- The 32-bit word with the given bytes, most significant first. -/
def word32 (a b c d : UInt8) : UInt32 :=
  UInt32.ofNat (((a.toNat * 256 + b.toNat) * 256 + c.toNat) * 256 + d.toNat)

@[simp] theorem length_be16 (w : UInt16) : (be16 w).length = 2 := rfl

@[simp] theorem length_be32 (w : UInt32) : (be32 w).length = 4 := rfl

theorem word16_be16 (w : UInt16) :
    word16 (UInt8.ofNat (w.toNat / 256)) (UInt8.ofNat w.toNat) = w := by
  have := w.toNat_lt
  apply UInt16.toNat_inj.1
  simp only [word16, UInt16.toNat_ofNat', UInt8.toNat_ofNat']
  omega

theorem word32_be32 (w : UInt32) :
    word32 (UInt8.ofNat (w.toNat / 16777216)) (UInt8.ofNat (w.toNat / 65536))
      (UInt8.ofNat (w.toNat / 256)) (UInt8.ofNat w.toNat) = w := by
  have := w.toNat_lt
  apply UInt32.toNat_inj.1
  simp only [word32, UInt32.toNat_ofNat', UInt8.toNat_ofNat']
  omega

theorem be16_word16 (a b : UInt8) : be16 (word16 a b) = [a, b] := by
  have ha := a.toNat_lt
  have hb := b.toNat_lt
  have h : (word16 a b).toNat = a.toNat * 256 + b.toNat := by
    simp only [word16, UInt16.toNat_ofNat']
    omega
  have hhigh : UInt8.ofNat ((word16 a b).toNat / 256) = a := by
    apply UInt8.toNat_inj.1
    rw [h, UInt8.toNat_ofNat']
    omega
  have hlow : UInt8.ofNat (word16 a b).toNat = b := by
    apply UInt8.toNat_inj.1
    rw [h, UInt8.toNat_ofNat']
    omega
  rw [be16, hhigh, hlow]

theorem be32_word32 (a b c d : UInt8) : be32 (word32 a b c d) = [a, b, c, d] := by
  have ha := a.toNat_lt
  have hb := b.toNat_lt
  have hc := c.toNat_lt
  have hd := d.toNat_lt
  have h : (word32 a b c d).toNat =
      ((a.toNat * 256 + b.toNat) * 256 + c.toNat) * 256 + d.toNat := by
    simp only [word32, UInt32.toNat_ofNat']
    omega
  have hbyte {n : Nat} {x : UInt8} (hn : n % 256 = x.toNat) : UInt8.ofNat n = x :=
    UInt8.toNat_inj.1 ((UInt8.toNat_ofNat' ..).trans hn)
  rw [be32, h, hbyte (x := a) (by omega), hbyte (x := b) (by omega), hbyte (x := c) (by omega),
    hbyte (x := d) (by omega)]

theorem be16_inj {v w : UInt16} : be16 v = be16 w ↔ v = w := by
  refine ⟨fun h => ?_, fun h => h ▸ rfl⟩
  simp only [be16, List.cons.injEq, and_true] at h
  obtain ⟨h₁, h₀⟩ := h
  rw [← word16_be16 v, ← word16_be16 w, h₁, h₀]

theorem be32_inj {v w : UInt32} : be32 v = be32 w ↔ v = w := by
  refine ⟨fun h => ?_, fun h => h ▸ rfl⟩
  simp only [be32, List.cons.injEq, and_true] at h
  obtain ⟨h₃, h₂, h₁, h₀⟩ := h
  rw [← word32_be32 v, ← word32_be32 w, h₃, h₂, h₁, h₀]

/-- A number of 64 bits read as a signed one: from `2 ^ 63` on it is
    negative. -/
def signed64 (n : Nat) : Int := Int.bmod n 0x10000000000000000

theorem signed64_eq {n : Nat} (h : n < 0x8000000000000000) : signed64 n = n := by
  unfold signed64
  rw [Int.bmod_def]
  omega

end AirLink
