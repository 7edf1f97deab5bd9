import CnfAudit.Assignment

/-!
# Variables without a value

A declared number below minus one counts from the end of the table, and a negative limit drops
elements from the end of the list.
-/

namespace CnfAudit.Assignment

/-- Where a part of a list of the given length stops: a negative bound counts from the end. -/
def stopIndex (length : Nat) (stop : Int) : Nat :=
  if stop < 0 then (stop + length).toNat else min stop.toNat length

/-- The variables up to `numVars` that have a slot without a value. -/
def openSlots (a : Assignment) (numVars : Int) : List Nat :=
  (List.range' 1 (stopIndex a.table.size (numVars + 1) - 1)).filter fun i =>
    a.table[i]?.join.isNone

def unassignedCount (a : Assignment) (numVars : Int) : Nat :=
  (a.openSlots numVars).length + (numVars + 1 - a.table.size).toNat

/-- The numbers from the end of the table up to, and without, `stop`. -/
def beyondTable (a : Assignment) (stop : Int) : List Nat :=
  List.range' a.table.size (stop - a.table.size).toNat

/-- A list of `2 ^ 63` variables or more, which no memory holds, is given all the same; only tables
are refused for their length, by `Assignment.sized`. -/
def unassignedVars (a : Assignment) (numVars : Int) (limit : Option Int) : List Nat :=
  let found := a.openSlots numVars
  match limit with
  | none => found ++ a.beyondTable (numVars + 1)
  | some k =>
      if k ≤ found.length then found.take (stopIndex found.length k)
      else found ++ a.beyondTable (min (numVars + 1) (a.table.size + k - found.length))

end CnfAudit.Assignment
