import Mathlib.Data.List.Basic

/-!
# Numbers in `printf` texts

The conversions `%d`, `%0nd`, `%x` and `%0nx` on 32-bit words.
-/

set_option autoImplicit false

namespace Sel4Xhci.Semantics.Format

/-- `%d` and `%i`. -/
def decimal (word : BitVec 32) : String := toString word.toInt

/-- `%0nd`: at least `n` characters, a sign included. -/
def decimalPadded (n : ℕ) (word : BitVec 32) : String :=
  let sign := if word.toInt < 0 then ['-'] else []
  let digits := Nat.toDigits 10 word.toInt.natAbs
  String.ofList (sign ++ List.replicate (n - (sign.length + digits.length)) '0' ++ digits)

/-- `%x`. -/
def hex (word : BitVec 32) : String := String.ofList (Nat.toDigits 16 word.toNat)

/-- `%0nx`: at least `n` digits. -/
def hexPadded (n : ℕ) (word : BitVec 32) : String :=
  let digits := Nat.toDigits 16 word.toNat
  String.ofList (List.replicate (n - digits.length) '0' ++ digits)

end Sel4Xhci.Semantics.Format
