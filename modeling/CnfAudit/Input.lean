import CnfAudit.Text.Blank
import CnfAudit.Text.Utf8

namespace CnfAudit

open Text

/-- How an input goes on behind its last readable line. -/
inductive Ending
  | complete
  | undecodable (refusal : Utf8.Refusal)
deriving DecidableEq, Repr

structure LineSource where
  lines : List String
  ending : Ending := .complete
deriving DecidableEq, Repr

/-- How far a reader has come. -/
inductive Phase
  | preamble
  | header
  | body
  | done
deriving DecidableEq, Repr

namespace Phase

def name : Phase → String
  | preamble => "preamble"
  | header => "header"
  | body => "body"
  | done => "done"

def rank : Phase → Nat
  | preamble => 0
  | header => 1
  | body => 2
  | done => 3

end Phase

/-- The first character of a stripped line; an empty line has none. -/
def tag? (line : String) : Option Char := line.toList.head?

/-- What stands behind the tag. -/
def payload (line : String) : String := String.ofList line.toList.tail

end CnfAudit
