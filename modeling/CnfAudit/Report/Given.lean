import CnfAudit.Report

/-!
# Reports from given values

A report can also be made without a check, from a value for each entry or the entry's default. There
is no default for what only a check can know.
-/

namespace CnfAudit.Report

/-- The entries of a report in order, each with its default. -/
def defaults : List (String × Option Value) :=
  [("ok", none),
   ("mode", some (.text Mode.materialize.name)),
   ("strict_unassigned", some (.bool false)),
   ("num_vars", none),
   ("num_clauses", none),
   ("clauses_checked", none),
   ("first_unsat_clause_idx", some .null),
   ("first_unsat_clause", some .null),
   ("unassigned_count", some (.int 0)),
   ("first_unassigned_vars", some (.ints []))]

/-- Why no report can be made from given values. -/
inductive Refusal
  | unknownEntry (name : String)
  | missingEntries (names : List String)
deriving DecidableEq, Repr

/-- The value given for an entry, or its default. -/
def valueOf (given : Entries) (entry : String × Option Value) : Option Value :=
  (given.lookup entry.1).or entry.2

/-- A value for no entry is refused before entries that have no value. -/
def ofGiven (given : Entries) : Except Refusal Entries :=
  match given.find? fun e => (defaults.lookup e.1).isNone with
  | some e => .error (.unknownEntry e.1)
  | none =>
      match defaults.filter fun entry => (valueOf given entry).isNone with
      | [] => .ok (defaults.filterMap fun entry => (valueOf given entry).map (entry.1, ·))
      | missing => .error (.missingEntries (missing.map Prod.fst))

end CnfAudit.Report
