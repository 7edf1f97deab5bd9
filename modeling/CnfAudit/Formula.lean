import CnfAudit.Formula.Header
import CnfAudit.Literal

namespace CnfAudit

structure Formula where
  header : Header
  clauses : List Clause
deriving DecidableEq

namespace Clause

def render (c : Clause) : String := String.intercalate " " (c.map Literal.render ++ ["0"])

end Clause

def Formula.render (f : Formula) : List String := f.header.render :: f.clauses.map Clause.render

end CnfAudit
