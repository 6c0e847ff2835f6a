/-
Hexadecimal numbers with a fixed least width.
-/

namespace Igd.Text

/-- The hexadecimal digits of `n`, with zeros in front up to `width` digits. -/
def hexDigits (width n : Nat) : String :=
  let digits := Nat.toDigits 16 n
  String.ofList (List.replicate (width - digits.length) '0' ++ digits)

/-- `0x` and at least `width` hexadecimal digits. -/
def hex (width n : Nat) : String :=
  "0x" ++ hexDigits width n

end Igd.Text
