namespace CnfAudit.Text

def isNumeral (cs : List Char) : Bool := !cs.isEmpty && cs.all Char.isDigit

def numeralValue (cs : List Char) : Nat := Nat.ofDigitChars 10 cs 0

/-- Whether a text starts with a minus sign, and what stands behind it. -/
def splitSign : List Char → Bool × List Char
  | '-' :: cs => (true, cs)
  | cs => (false, cs)

def withSign (negative : Bool) (n : Nat) : Int := if negative then -n else n

theorem numeralValue_toDigits (n : Nat) : numeralValue (Nat.toDigits 10 n) = n :=
  Nat.ofDigitChars_toDigits (by decide) (by decide)

end CnfAudit.Text
