import CnfAudit.Integer
import CnfAudit.Text.Blank

namespace CnfAudit

open Text

structure Header where
  numVars : Nat
  numClauses : Nat
  numVars_le : numVars ≤ maxVariable
deriving DecidableEq

namespace Header

/-- The two counts, both tested for their form before either is read. -/
def ofCounts (line vars clauses : String) (place : Place) : Except Fault Header :=
  if !(isNumeral vars.toList && isNumeral clauses.toList) then reject (.headerCounts line) place
  else
    match readNumeral vars.toList, readNumeral clauses.toList with
    | .error fault, _ => .error fault
    | .ok _, .error fault => .error fault
    | .ok numVars, .ok numClauses =>
        if h : numVars ≤ maxVariable then .ok ⟨numVars, numClauses, h⟩
        else reject (.tooManyVariables numVars) place

def parse (line : String) (place : Place) : Except Fault Header :=
  match fields line with
  | ["p", "cnf", vars, clauses] => ofCounts line vars clauses place
  | _ => reject (.malformedHeader line) place

theorem mentioning_numVars (h : Header) (cause : Cause) (place : Place) :
    Fault.mentioning h.numVars cause place = .rejected ⟨cause, place⟩ :=
  Fault.mentioning_of_writable (isWritable_of_le h.numVars_le) cause place

def render (h : Header) : String :=
  "p cnf " ++ toString h.numVars ++ " " ++ toString h.numClauses

end Header

end CnfAudit
