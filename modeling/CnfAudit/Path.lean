/-!
# Paths

A path is kept in normal form. Double dots are kept, and so are exactly two slashes at the start.
-/

namespace CnfAudit

structure Path where
  root : String
  parts : List String
deriving DecidableEq, Repr

namespace Path

/-- Cuts a text at its slashes. -/
def splitSlash : List Char → List Char → List (List Char)
  | [], part => [part.reverse]
  | c :: cs, part =>
      if c = '/' then part.reverse :: splitSlash cs [] else splitSlash cs (c :: part)

def rootOf (cs : List Char) : String :=
  match (cs.takeWhile (· == '/')).length with
  | 0 => ""
  | 2 => "//"
  | _ => "/"

def isPart (part : List Char) : Bool := !part.isEmpty && part != ['.']

def ofString (s : String) : Path :=
  ⟨rootOf s.toList, ((splitSlash s.toList []).filter isPart).map String.ofList⟩

def render (p : Path) : String :=
  let text := p.root ++ String.intercalate "/" p.parts
  if text.isEmpty then "." else text

/-- The path without its last component. -/
def parent (p : Path) : Path := { p with parts := p.parts.dropLast }

def isAbsolute (p : Path) : Bool := !p.root.isEmpty

end Path

end CnfAudit
