/-!
# Hexadecimal numbers

Digits may be lower or upper case.
-/

set_option autoImplicit false

namespace Highlighter

/-- The value of a hexadecimal digit. -/
def hexValue? (c : Char) : Option Nat :=
  if c.isDigit then some (c.toNat - '0'.toNat)
  else if 'a' ≤ c && c ≤ 'f' then some (c.toNat - 'a'.toNat + 10)
  else if 'A' ≤ c && c ≤ 'F' then some (c.toNat - 'A'.toNat + 10)
  else none

/-- Whether a character is a hexadecimal digit. -/
def isHexDigit (c : Char) : Bool := (hexValue? c).isSome

/-- The value of a nonempty row of hexadecimal digits. -/
def hexNumber? : List Char → Option Nat
  | [] => none
  | digits => digits.foldlM (fun value c => do return 16 * value + (← hexValue? c)) 0

/-- The character with a code, if there is one. -/
def charOfCode? (code : Nat) : Option Char :=
  if code.isValidChar then some (Char.ofNat code) else none

/-- The bytes that pairs of hexadecimal digits write. -/
def hexBytes? : List Char → Option (List UInt8)
  | [] => some []
  | [_] => none
  | high :: low :: rest => do
    let byte := 16 * (← hexValue? high) + (← hexValue? low)
    return byte.toUInt8 :: (← hexBytes? rest)

end Highlighter
