import CnfAudit.Limits
import CnfAudit.Text.Hexadecimal
import CnfAudit.Text.Quoted
import CnfAudit.Text.Utf8

/-!
# Diagnostics

What can be wrong with a formula or a certificate, and where.
-/

namespace CnfAudit

open Text

/-- Where a diagnostic points: the name of the input and a line of it, whose number is short enough
to be written. The line is shown only if the input has a name. -/
structure Place where
  source : Option String := none
  line : Option Int := none
deriving DecidableEq, Repr

def Place.locate (place : Place) (text : String) : String :=
  match place.source, place.line with
  | none, _ => text
  | some source, none => source ++ ": " ++ text
  | some source, some line => source ++ ":" ++ toString line ++ ": " ++ text

/-- The classes of diagnostics. -/
inductive Kind
  | invalidLiteral
  | malformedHeader
  | variableOutOfRange
  | clauseCountMismatch
  | missingSatisfiableStatus
  | duplicateStatusLine
  | contradictoryAssignment
  | invalidLineTag
deriving DecidableEq, Repr

/-- The name of a class as reports give it. -/
def Kind.name : Kind → String
  | .invalidLiteral => "InvalidLiteral"
  | .malformedHeader => "MalformedHeader"
  | .variableOutOfRange => "VariableOutOfRange"
  | .clauseCountMismatch => "ClauseCountMismatch"
  | .missingSatisfiableStatus => "MissingSatisfiableStatus"
  | .duplicateStatusLine => "DuplicateStatusLine"
  | .contradictoryAssignment => "ContradictoryAssignment"
  | .invalidLineTag => "InvalidLineTag"

/-- What is wrong. Literals are given as signed integers. -/
inductive Cause
  | nonInteger (token : String)
  | wordWithoutVariable (word : Int)
  | variableOutside (var : Int)
  | terminatorAsLiteral
  | malformedHeader (line : String)
  | headerCounts (line : String)
  | tooManyVariables (count : Nat)
  | headerExpected (line : String)
  | headerMissing
  | secondHeader (line : String)
  | surplusClause (declared : Nat)
  | unterminatedClause
  | clauseCount (declared found : Nat)
  | literalOutOfRange (literal : Int) (numVars : Nat)
  | valueOutOfRange (value numVars : Int)
  | exceedsDeclared (literal numVars : Int)
  | assignsBeyond (var : Nat) (numVars : Int)
  | statusMissing
  | otherStatus (line : String)
  | repeatedStatus (first : Nat) (line : String)
  | contradiction (literal : Int)
  | unknownTag (tag : Char) (line : String)
  | valuesAfterZero (tokens : List String)
deriving DecidableEq, Repr

namespace Cause

def kind : Cause → Kind
  | nonInteger _ | wordWithoutVariable _ | variableOutside _ | terminatorAsLiteral
  | valuesAfterZero _ => .invalidLiteral
  | malformedHeader _ | headerCounts _ | tooManyVariables _ | headerExpected _ | headerMissing
  | secondHeader _ => .malformedHeader
  | literalOutOfRange .. | valueOutOfRange .. | exceedsDeclared .. | assignsBeyond .. =>
      .variableOutOfRange
  | surplusClause _ | unterminatedClause | clauseCount .. => .clauseCountMismatch
  | statusMissing | otherStatus _ => .missingSatisfiableStatus
  | repeatedStatus .. => .duplicateStatusLine
  | contradiction _ => .contradictoryAssignment
  | unknownTag .. => .invalidLineTag

def text : Cause → String
  | nonInteger token => "non-integer literal: " ++ quoted token
  | wordWithoutVariable word => "packed literal " ++ hexSigned word ++ " has no variable"
  | variableOutside var => "variable " ++ toString var ++ " outside 1.." ++ toString maxVariable
  | terminatorAsLiteral => "0 is a clause terminator, not a literal"
  | malformedHeader line => "malformed header: " ++ quoted line
  | headerCounts line => "header counts must be non-negative integers: " ++ quoted line
  | tooManyVariables count =>
      "variable count " ++ toString count ++ " exceeds " ++ toString maxVariable
  | headerExpected line => "expected 'p cnf' header, got " ++ quoted line
  | headerMissing => "missing 'p cnf' header"
  | secondHeader line => "second header line: " ++ quoted line
  | surplusClause declared =>
      "header declares " ++ toString declared ++ " clause(s) but more follow"
  | unterminatedClause => "input ended with unterminated clause (missing trailing 0)"
  | clauseCount declared found =>
      "header declares " ++ toString declared ++ " clause(s) but input has " ++ toString found
  | literalOutOfRange literal numVars =>
      "literal " ++ toString literal ++ " out of range for nvars=" ++ toString numVars
  | valueOutOfRange value numVars =>
      "certificate literal " ++ toString value ++ " out of range for nvars=" ++ toString numVars
  | exceedsDeclared literal numVars =>
      "literal " ++ toString literal ++ " exceeds declared variable count " ++ toString numVars
  | assignsBeyond var numVars =>
      "certificate assigns variable " ++ toString var ++ " but formula declares " ++
        toString numVars ++ " variable(s)"
  | statusMissing => "no 's SATISFIABLE' status line"
  | otherStatus line => "expected 's SATISFIABLE', got " ++ quoted line
  | repeatedStatus first line =>
      "second status line (first at line " ++ toString first ++ "): " ++ quoted line
  | contradiction literal =>
      "variable " ++ toString literal.natAbs ++ " assigned both " ++ toString (-literal) ++
        " and " ++ toString literal
  | unknownTag tag line =>
      "unrecognized line tag " ++ quoted (String.singleton tag) ++ ": " ++ quoted line
  | valuesAfterZero tokens =>
      "values after terminating 0: " ++ quoted (String.intercalate " " tokens)

end Cause

structure Diagnostic where
  cause : Cause
  place : Place := {}
deriving DecidableEq, Repr

namespace Diagnostic

def kind (d : Diagnostic) : Kind := d.cause.kind

def message (d : Diagnostic) : String := d.place.locate d.cause.text

end Diagnostic

/-- Why reading or checking an input stopped. Only a rejection is a diagnostic with a place. An
integer of too many digits to be read or to be written, octets that are not text, and an input that
was read before have none. -/
inductive Fault
  | rejected (diagnostic : Diagnostic)
  | tooManyDigits (count : Nat)
  | unwritable
  | undecodable (refusal : Utf8.Refusal)
  | consumed
deriving DecidableEq, Repr

namespace Fault

/-- The message of the limit on digits, with what it says about the integer. -/
def digitLimit (detail : String) : String :=
  "Exceeds the limit (" ++ toString maxDigits ++ " digits) for integer string conversion" ++
    detail ++ "; use sys.set_int_max_str_digits() to increase the limit"

def message : Fault → String
  | rejected diagnostic => diagnostic.message
  | tooManyDigits count => digitLimit (": value has " ++ toString count ++ " digits")
  | unwritable => digitLimit ""
  | undecodable refusal => refusal.message
  | consumed => "certificate input has already been consumed"

/-- A rejection whose wording has the integer `n` in it, which must be written for that. -/
def mentioning (n : Int) (cause : Cause) (place : Place) : Fault :=
  if isWritable n then rejected ⟨cause, place⟩ else unwritable

/-- The same rejection at another place. Other faults have none. -/
def placedAt (place : Place) : Fault → Fault
  | rejected diagnostic => rejected { diagnostic with place }
  | fault => fault

theorem mentioning_of_writable {n : Int} (h : isWritable n = true) (cause : Cause) (place : Place) :
    mentioning n cause place = rejected ⟨cause, place⟩ :=
  if_pos h

theorem placedAt_mentioning (place : Place) (n : Int) (cause : Cause) :
    placedAt place (mentioning n cause {}) = mentioning n cause place := by
  unfold mentioning
  split <;> rfl

end Fault

/-- A rejection, as the outcome of a reader. -/
def reject {α : Type} (cause : Cause) (place : Place) : Except Fault α :=
  .error (.rejected ⟨cause, place⟩)

end CnfAudit
