import Mathlib.Algebra.GroupWithZero.Nat

/-! Byte lengths of compact JSON text: strings with the short escapes, decimal
naturals, arrays and objects without whitespace. Only lengths are modelled. -/
namespace TerrapiVault.JsonSize

/-- Quote and backslash and the five short control escapes take two bytes, the
remaining control characters a six byte escape, everything else its UTF-8 form. -/
def escaped (c : Char) : ℕ :=
  if c.toNat ∈ [34, 92, 8, 9, 10, 12, 13] then 2
  else if c.toNat < 32 then 6
  else c.utf8Size

def text (s : String) : ℕ := 2 + (s.toList.map escaped).sum

def number (n : ℕ) : ℕ := (Nat.toDigits 10 n).length

def array (items : List ℕ) : ℕ := 2 + items.sum + (items.length - 1)

def object (fields : List (String × ℕ)) : ℕ :=
  array (fields.map fun field => text field.1 + 1 + field.2)

def bytes (xs : List UInt8) : ℕ := array (xs.map fun b => number b.toNat)

end TerrapiVault.JsonSize
