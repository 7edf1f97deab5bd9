namespace CnfAudit

inductive Mode
  | stream
  | materialize
deriving DecidableEq, Repr

namespace Mode

def all : List Mode := [stream, materialize]

def name : Mode → String
  | stream => "stream"
  | materialize => "materialize"

def ofName? (name : String) : Option Mode := all.find? fun mode => mode.name == name

end Mode

end CnfAudit
