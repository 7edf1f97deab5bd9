import CnfAudit.Diagnostic
import CnfAudit.Text.Decimal

namespace CnfAudit

open Text

/-- The value of a numeral of at most `maxDigits` digits. -/
def readNumeral (digits : List Char) : Except Fault Nat :=
  if digits.length ≤ maxDigits then .ok (numeralValue digits)
  else .error (.tooManyDigits digits.length)

def readInteger (token : String) (place : Place) : Except Fault Int :=
  let (negative, digits) := splitSign token.toList
  if isNumeral digits then (readNumeral digits).map (withSign negative)
  else reject (.nonInteger token) place

end CnfAudit
