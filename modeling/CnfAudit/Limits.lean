/-!
# Limits of the formats
-/

namespace CnfAudit

/-- A literal keeps its variable in 31 bits. -/
def maxVariable : Nat := 0x7fffffff

/-- Integers are read up to so many digits, leading zeros included, and written up to as many. -/
def maxDigits : Nat := 4300

/-- The length of a table is a signed 64-bit word, below this number and not below its negative. -/
def tableLengths : Nat := 0x8000000000000000

/-- An integer can be written in decimal. -/
def isWritable (n : Int) : Bool := (Nat.toDigits 10 n.natAbs).length ≤ maxDigits

theorem isWritable_natAbs (n : Int) : isWritable n.natAbs = isWritable n := by
  rw [isWritable, isWritable, Int.natAbs_natCast]

theorem isWritable_of_le {n : Nat} (h : n ≤ maxVariable) : isWritable n = true := by
  have hdigits : (Nat.toDigits 10 n).length ≤ 10 := by
    apply (Nat.length_toDigits_le_iff (by decide) (by decide)).2
    exact Nat.lt_of_le_of_lt h (by decide)
  rw [isWritable, decide_eq_true_iff, Int.natAbs_natCast]
  exact Nat.le_trans hdigits (by decide)

end CnfAudit
