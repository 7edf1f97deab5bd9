import CnfAudit.Proofs.Rendering
import Mathlib.Data.Nat.Digits.Defs

/-!
# Integer tokens

`Numeral` is the text of an integer taken apart, and its value is that of the digits as numbers,
without reference to characters.
-/

namespace CnfAudit

open Text

/-- A minus sign or none and at least one digit, the most significant one first. -/
structure Numeral where
  minus : Bool
  digits : List (Fin 10)
  nonempty : digits ≠ []

namespace Numeral

def digitChars (digits : List (Fin 10)) : List Char := digits.map fun d : Fin 10 => Nat.digitChar d

def text (n : Numeral) : String :=
  String.ofList ((if n.minus then ['-'] else []) ++ digitChars n.digits)

/-- The number that the digits are in the decimal system. -/
def magnitude (n : Numeral) : Nat := Nat.ofDigits 10 (n.digits.map Fin.val).reverse

def value (n : Numeral) : Int := if n.minus then -n.magnitude else n.magnitude

section Digits

variable (digits : List (Fin 10))

end Digits

end Numeral

section Tokens

variable {token : String} (place : Place)

end Tokens

-- a plus sign, a separator, a digit of another script and a line end are not of the form
example : ∀ token ∈ ["+3", "1_000", "٣", "3\n", "- 3", "-", ""],
    readInteger token {} = .error (.rejected ⟨.nonInteger token, {}⟩) := by
  decide +kernel

end CnfAudit
