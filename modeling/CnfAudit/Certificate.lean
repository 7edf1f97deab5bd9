import CnfAudit.Certificate.Reader

namespace CnfAudit.Certificate

def collect (taken : List (Nat × Literal)) (line : Nat) (l : Literal) :
    Except Fault Unit × List (Nat × Literal) :=
  (.ok (), (line, l) :: taken)

/-- All values that a pass still has, with the numbers of their lines. -/
def Reader.drain (r : Reader) (p : Pass) : Folded (List (Nat × Literal)) :=
  let folded := r.fold collect p []
  { folded with state := folded.state.reverse }

/-- Records a value; a contradiction is placed at the line of the value. -/
def record (source : Option String) (a : Assignment) (line : Nat) (l : Literal) :
    Except Fault Unit × Assignment :=
  match a.assign l with
  | (.ok (), b) => (.ok (), b)
  | (.error cause, b) => (reject cause ⟨source, some line⟩, b)

/-- Records the values of a whole certificate: the assignment as far as it came, and the fault that
ended the reading if there was one. -/
def load (source : Option String) (numVars : Option Int) (input : LineSource) :
    Folded Assignment :=
  Reader.fold (record source) { source, numVars, input } .fresh .empty

def read (source : Option String) (numVars : Option Int) (input : LineSource) :
    Except Fault Assignment :=
  let loaded := load source numVars input
  match loaded.fault with
  | some fault => .error fault
  | none => .ok loaded.state

/-- The literals of a certificate in the order of the text. -/
def readLiterals (source : Option String) (numVars : Option Int) (input : LineSource) :
    Except Fault (List Literal) :=
  let drained := Reader.drain { source, numVars, input } .fresh
  match drained.fault with
  | some fault => .error fault
  | none => .ok (drained.state.map Prod.snd)

end CnfAudit.Certificate
