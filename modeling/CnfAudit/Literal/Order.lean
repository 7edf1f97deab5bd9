import CnfAudit.Literal

namespace CnfAudit.Literal

def before (a b : Literal) : Bool := a.var < b.var

/-- What a literal may be compared with. -/
inductive Comparand
  | literal (l : Literal)
  | integer (n : Int)
deriving DecidableEq

inductive Relation
  | eq | ne | lt | gt | le
deriving DecidableEq, Repr

/-- A relation that does not exist between a literal and a comparand of its kind. -/
structure Unsupported where
  relation : Relation
  withInteger : Bool
deriving DecidableEq, Repr

def Relation.sign : Relation → String
  | .eq => "=="
  | .ne => "!="
  | .lt => "<"
  | .gt => ">"
  | .le => "<="

def Unsupported.message (u : Unsupported) : String :=
  "'" ++ u.relation.sign ++ "' not supported between instances of 'Lit' and " ++
    (if u.withInteger then "'int'" else "'Lit'")

/-- No literal equals an integer, not even its own. -/
def compare (r : Relation) (a : Literal) : Comparand → Except Unsupported Bool
  | .literal b =>
      match r with
      | .eq => .ok (a = b)
      | .ne => .ok (a ≠ b)
      | .lt => .ok (a.before b)
      | .gt => .ok (b.before a)
      | .le => .error ⟨.le, false⟩
  | .integer _ =>
      match r with
      | .eq => .ok false
      | .ne => .ok true
      | r => .error ⟨r, true⟩

/-- By ascending variable; literals of one variable keep their order. -/
def sortAscending (ls : List Literal) : List Literal :=
  ls.mergeSort (fun a b => !b.before a)

/-- By descending variable; literals of one variable keep their order here too. -/
def sortDescending (ls : List Literal) : List Literal :=
  ls.mergeSort (fun a b => !a.before b)

/-- The first literal of the least variable. -/
def least : Literal → List Literal → Literal
  | best, [] => best
  | best, l :: ls => least (if l.before best then l else best) ls

/-- The first literal of the greatest variable. -/
def greatest : Literal → List Literal → Literal
  | best, [] => best
  | best, l :: ls => greatest (if best.before l then l else best) ls

def distinctCount (ls : List Literal) : Nat := ls.eraseDups.length

end CnfAudit.Literal
