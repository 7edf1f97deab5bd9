import CnfAudit.Input
import CnfAudit.Octets
import CnfAudit.Text.Utf8

/-!
# Lines of a file

A file is decoded block by block. Octets that cannot be decoded cost the lines of their own block
and all behind it, and none before.
-/

namespace CnfAudit.Text.Lines

def blockSize : Nat := 8192

/-- The line being read: its characters, last first, and whether a carriage return follows them
that may yet be joined by a line feed. -/
structure Current where
  chars : List Char := []
  returned : Bool := false

def Current.line (cur : Current) : String := String.ofList cur.chars.reverse

/-- Reads characters: the lines that end among them, and the line that is left. -/
def feed (cur : Current) : List Char → List String × Current
  | [] => ([], cur)
  | c :: cs =>
      if c = '\n' then
        let (lines, last) := feed {} cs
        (cur.line :: lines, last)
      else
        let (ended, fresh) := if cur.returned then ([cur.line], []) else ([], cur.chars)
        let (lines, last) :=
          if c = '\r' then feed ⟨fresh, true⟩ cs else feed ⟨c :: fresh, false⟩ cs
        (ended ++ lines, last)

/-- The last line has no end of its own; if nothing stands behind the last end there is none. -/
def Current.finish (cur : Current) : List String :=
  if cur.chars.isEmpty && !cur.returned then [] else [cur.line]

def ofBlocks (state : Utf8.State) (cur : Current) : List (List UInt8) → LineSource
  | [] =>
      if state.owed = 0 then ⟨cur.finish, .complete⟩ else ⟨[], .undecodable state.breakOff⟩
  | block :: rest =>
      match Utf8.decode state block with
      | .error refusal => ⟨[], .undecodable refusal⟩
      | .ok (cs, state) =>
          let (lines, cur) := feed cur cs
          let behind := ofBlocks state cur rest
          ⟨lines ++ behind.lines, behind.ending⟩

def ofBytes (bytes : List UInt8) : LineSource := ofBlocks .start {} (Octets.blocks blockSize bytes)

end CnfAudit.Text.Lines
