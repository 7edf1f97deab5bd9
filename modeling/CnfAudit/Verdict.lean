import CnfAudit.Assignment.Unassigned
import CnfAudit.Formula.Stream
import CnfAudit.Mode

/-!
# Verdicts

Clauses are checked in order until one has no literal that the assignment satisfies, and none
behind that one is pulled.
-/

namespace CnfAudit

/-- Whether the clause being read has a satisfied literal so far. -/
structure ClauseWatch where
  assignment : Assignment
  satisfied : Bool := false

namespace ClauseWatch

def observe (w : ClauseWatch) (l : Literal) : Bool × ClauseWatch :=
  let satisfied := w.satisfied || w.assignment.satisfies l
  (satisfied, { w with satisfied })

/-- Ends the clause: the answer for it, and a watch for the next one. -/
def close (w : ClauseWatch) : Bool × ClauseWatch := (w.satisfied, { w with satisfied := false })

/-- Records a literal in the assignment being watched. -/
def assign (w : ClauseWatch) (l : Literal) : Except Cause Unit × ClauseWatch :=
  let (result, assignment) := w.assignment.assign l
  (result, { w with assignment })

/-- Observes the literals of a clause up to the first that is satisfied. -/
def observeClause (w : ClauseWatch) : Clause → ClauseWatch
  | [] => w
  | l :: ls =>
      match w.observe l with
      | (true, w) => w
      | (false, w) => observeClause w ls

end ClauseWatch

/-- The outcome of a check. Indices count from one. What the check was told only for the record
stands here as it was told, or not at all. -/
structure Verdict where
  ok : Bool
  numVars : Int
  numClauses : Option Int
  clausesChecked : Nat
  mode : Option String
  firstUnsatIndex : Option Nat
  firstUnsatClause : Option Clause
  unassignedCount : Nat
  firstUnassigned : List Nat
  strictUnassigned : Option Bool
deriving DecidableEq

/-- How many of the variables without a value a verdict names. -/
def unassignedSample : Nat := 20

/-- Pulls clauses while they are satisfied: the number pulled, and the clause that is not. -/
def searchFrom {σ : Type} [ClauseSource σ] (w : ClauseWatch) (checked : Nat) (s : σ) :
    Except Fault (Nat × Option Clause) × σ :=
  match h : ClauseSource.pull s with
  | (.error fault, t) => (.error fault, t)
  | (.ok none, t) => (.ok (checked, none), t)
  | (.ok (some c), t) =>
      have := ClauseSource.weight_lt h
      match (w.observeClause c).close with
      | (true, w) => searchFrom w (checked + 1) t
      | (false, _) => (.ok (checked + 1, some c), t)
termination_by ClauseSource.weight s

/-- What a check is told beside the clauses and the assignment. The number of clauses and the mode
are only for the record. -/
structure CheckSettings where
  numVars : Int
  numClauses : Option Int
  mode : Option String := some Mode.materialize.name
  /-- Whether variables without a value are refused. They are not if nothing is said. -/
  strictUnassigned : Option Bool := some false

def CheckSettings.isStrict (settings : CheckSettings) : Bool :=
  settings.strictUnassigned.getD false

def Verdict.ofSearch (a : Assignment) (settings : CheckSettings) (checked : Nat)
    (unsat : Option Clause) : Verdict :=
  let count := a.unassignedCount settings.numVars
  { ok := unsat.isNone && !(settings.isStrict && 0 < count)
    numVars := settings.numVars
    numClauses := settings.numClauses
    clausesChecked := checked
    mode := settings.mode
    firstUnsatIndex := unsat.map fun _ => checked
    firstUnsatClause := unsat
    unassignedCount := count
    firstUnassigned := a.unassignedVars settings.numVars (some unassignedSample)
    strictUnassigned := settings.strictUnassigned }

/-- Checks the clauses of a source, and gives what is left of it. An assignment with a variable
out of range is rejected before anything is pulled. -/
def checkClauses {σ : Type} [ClauseSource σ] (clauses : σ) (a : Assignment)
    (settings : CheckSettings) : Except Fault Verdict × σ :=
  match a.checkRange settings.numVars with
  | .error fault => (.error fault, clauses)
  | .ok () =>
      match searchFrom ⟨a, false⟩ 0 clauses with
      | (.error fault, rest) => (.error fault, rest)
      | (.ok (checked, unsat), rest) => (.ok (.ofSearch a settings checked unsat), rest)

def Formula.check (f : Formula) (a : Assignment) (strictUnassigned : Option Bool) :
    Except Fault Verdict :=
  (checkClauses f.clauses a
    { numVars := f.header.numVars, numClauses := some f.header.numClauses, strictUnassigned }).1

def ClauseStream.check (s : ClauseStream) (a : Assignment) (strictUnassigned : Option Bool) :
    Except Fault Verdict × ClauseStream :=
  checkClauses s a
    { numVars := s.header.numVars, numClauses := some s.header.numClauses,
      mode := some Mode.stream.name, strictUnassigned }

end CnfAudit
