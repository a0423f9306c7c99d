/-
  The hexadecimal text of bytes, two small digits for each.  `ofHex` reads
  what `toHex` writes (`ofHex_toHex`).
-/
import AirLink.Bytes

namespace AirLink

/-- The value of a hexadecimal digit, small or capital. -/
def hexValue (c : Char) : Nat :=
  if c.isDigit then c.toNat - 48 else if c.isLower then c.toNat - 87 else c.toNat - 55

namespace Bytes

/-- The digits of bytes, two for each. -/
def hexDigits (bs : Bytes) : List Char :=
  bs.flatMap fun b => [Nat.digitChar (b.toNat / 16), Nat.digitChar (b.toNat % 16)]

/-- The bytes with the given digits; a last digit without a partner is left
    out. -/
def ofHexDigits : List Char → Bytes
  | a :: b :: rest => UInt8.ofNat (hexValue a * 16 + hexValue b) :: ofHexDigits rest
  | _ => []

/-- The text of bytes. -/
def toHex (bs : Bytes) : String := String.ofList bs.hexDigits

/-- The bytes of a text. -/
def ofHex (s : String) : Bytes := ofHexDigits s.toList

theorem hexValue_digitChar {n : Nat} (h : n < 16) : hexValue (Nat.digitChar n) = n := by
  revert n
  decide

theorem ofHexDigits_hexDigits (bs : Bytes) : ofHexDigits bs.hexDigits = bs := by
  induction bs with
  | nil => rfl
  | cons b bs ih =>
    have hb := b.toNat_lt
    show UInt8.ofNat _ :: ofHexDigits (hexDigits bs) = _
    rw [ih, hexValue_digitChar (by omega), hexValue_digitChar (by omega), Nat.div_add_mod']
    simp

theorem ofHex_toHex (bs : Bytes) : ofHex bs.toHex = bs := by
  simp [ofHex, toHex, ofHexDigits_hexDigits]

end Bytes
end AirLink
