import CnfAudit.Text.Hexadecimal
import CnfAudit.Verdict

/-!
# Reports

A report is written as a JSON object in ASCII, with one entry to a line, by ascending name.
-/

namespace CnfAudit.Report

open Text

inductive Value
  | null
  | bool (b : Bool)
  | int (n : Int)
  | text (s : String)
  | ints (ns : List Int)
deriving DecidableEq, Repr

/-- A value that may be absent. -/
def Value.orNull {α : Type} (value : α → Value) : Option α → Value
  | none => .null
  | some a => value a

abbrev Entries := List (String × Value)

/-- A code unit of at most four hexadecimal digits. -/
def escapedUnit (n : Nat) : List Char := '\\' :: 'u' :: hexPadded 4 n

/-- The escape of a character by its code units: above the basic plane there are two. -/
def escapedUnits (n : Nat) : List Char :=
  if n < 0x10000 then escapedUnit n
  else
    let m := n - 0x10000
    escapedUnit (0xd800 + m / 0x400) ++ escapedUnit (0xdc00 + m % 0x400)

def escapedChar (c : Char) : List Char :=
  let n := c.toNat
  if c = '"' || c = '\\' then ['\\', c]
  else if 0x20 ≤ n && n < 0x7f then [c]
  else if n = 0x08 then ['\\', 'b']
  else if n = 0x09 then ['\\', 't']
  else if n = 0x0a then ['\\', 'n']
  else if n = 0x0c then ['\\', 'f']
  else if n = 0x0d then ['\\', 'r']
  else escapedUnits n

def renderText (s : String) : String :=
  String.ofList ('"' :: s.toList.flatMap escapedChar ++ ['"'])

/-- Items one to a line at the given indent, between two brackets. -/
def block (indent opening closing : String) (items : List String) : String :=
  match items with
  | [] => opening ++ closing
  | items =>
      opening ++ "\n" ++ String.intercalate ",\n" (items.map fun item => indent ++ "  " ++ item) ++
        "\n" ++ indent ++ closing

def Value.render : Value → String
  | null => "null"
  | bool true => "true"
  | bool false => "false"
  | int n => toString n
  | text s => renderText s
  | ints ns => block "  " "[" "]" (ns.map toString)

def render (entries : Entries) : String :=
  let sorted := entries.mergeSort fun a b => !(b.1 < a.1)
  block "" "\x7b" "\x7d" (sorted.map fun e => renderText e.1 ++ ": " ++ e.2.render) ++ "\n"

end CnfAudit.Report

namespace CnfAudit

open Report in
/-- The entries for a verdict. -/
def Verdict.report (v : Verdict) : Report.Entries :=
  [("ok", .bool v.ok),
   ("mode", .orNull .text v.mode),
   ("strict_unassigned", .orNull .bool v.strictUnassigned),
   ("num_vars", .int v.numVars),
   ("num_clauses", .orNull .int v.numClauses),
   ("clauses_checked", .int v.clausesChecked),
   ("first_unsat_clause_idx", .orNull (fun i => .int (Int.ofNat i)) v.firstUnsatIndex),
   ("first_unsat_clause", .orNull (fun c => .ints (c.map Literal.toInt)) v.firstUnsatClause),
   ("unassigned_count", .int v.unassignedCount),
   ("first_unassigned_vars", .ints (v.firstUnassigned.map Int.ofNat))]

end CnfAudit
