import CnfAudit.Formula
import CnfAudit.Formula.Source
import CnfAudit.Input

/-!
# Clause streams

A formula read on demand: each pull reads on to the zero that ends the next clause and not a line
further.
-/

namespace CnfAudit

open Text

structure ClauseStream where
  source : Option String
  header : Header
  phase : Phase := .header
  /-- The zeros met so far. -/
  clausesRead : Nat := 0
  /-- The number of the current line, which is the number of lines taken. -/
  lineNumber : Nat
  /-- The tokens of the current line that have not been read. -/
  tokens : List String := []
  /-- The literals of the clause being read, last first. -/
  unfinished : Clause := []
  input : LineSource
  finished : Bool := false

namespace ClauseStream

/-- Reads lines up to the header: the header or what stands in its way, the number of lines taken
and the lines that follow. -/
def seekHeader (source : Option String) (ending : Ending) (taken : Nat) :
    List String → Except Fault Header × Nat × List String
  | [] =>
      match ending with
      | .complete => (reject .headerMissing ⟨source, none⟩, taken, [])
      | .undecodable refusal => (.error (.undecodable refusal), taken, [])
  | line :: rest =>
      let text := strip line
      let place : Place := ⟨source, some (taken + 1 : Nat)⟩
      match tag? text with
      | none => seekHeader source ending (taken + 1) rest
      | some 'c' => seekHeader source ending (taken + 1) rest
      | some 'p' => (Header.parse text place, taken + 1, rest)
      | some _ => (reject (.headerExpected text) place, taken + 1, rest)

/-- The stream, if the header is in order, and the number of lines taken for it. -/
def start (source : Option String) (input : LineSource) : Except Fault ClauseStream × Nat :=
  match seekHeader source input.ending 0 input.lines with
  | (.error fault, taken, _) => (.error fault, taken)
  | (.ok header, taken, rest) =>
      (.ok { source, header, lineNumber := taken, input := ⟨rest, input.ending⟩ }, taken)

def here (s : ClauseStream) : Place := ⟨s.source, some s.lineNumber⟩

def close (s : ClauseStream) : ClauseStream := { s with phase := .done, finished := true }

def fail (s : ClauseStream) (fault : Fault) : Pulled ClauseStream :=
  (.error fault, { s with finished := true })

/-- What the tokens of a line come to. -/
inductive TokenScan
  | clause (literals : Clause) (rest : List String)
  | lineEnd (literals : Clause)
  | fault (fault : Fault)

/-- Reads tokens up to a zero; `read` holds the literals read before, last first. -/
def scanTokens (header : Header) (place : Place) : List String → Clause → TokenScan
  | [], read => .lineEnd read
  | token :: rest, read =>
      match readInteger token place with
      | .error fault => .fault fault
      | .ok value =>
          if hzero : value = 0 then .clause read.reverse rest
          else if hrange : value.natAbs ≤ header.numVars then
            let l := Literal.ofNonzero value ⟨hzero, Nat.le_trans hrange header.numVars_le⟩
            scanTokens header place rest (l :: read)
          else .fault (.rejected ⟨.literalOutOfRange value header.numVars, place⟩)

/-- Counts a finished clause and hands it out, unless it is one too many. -/
def deliver (s : ClauseStream) (clause : Clause) (rest : List String) :
    Pulled ClauseStream :=
  let t := { s with clausesRead := s.clausesRead + 1, tokens := rest, unfinished := [] }
  if t.clausesRead ≤ t.header.numClauses then (.ok (some clause), t)
  else t.fail (.rejected ⟨.surplusClause t.header.numClauses, t.here⟩)

def atEnd (s : ClauseStream) : Pulled ClauseStream :=
  match s.input.ending with
  | .undecodable refusal => s.fail (.undecodable refusal)
  | .complete =>
      let t := { s with phase := .done }
      let place : Place := ⟨s.source, none⟩
      if !s.unfinished.isEmpty then t.fail (.rejected ⟨.unterminatedClause, place⟩)
      else if s.clausesRead ≠ s.header.numClauses then
        t.fail (.rejected ⟨.clauseCount s.header.numClauses s.clausesRead, place⟩)
      else (.ok none, { t with finished := true })

/-- Takes lines until a clause is finished. -/
def pullLines (s : ClauseStream) : List String → Pulled ClauseStream
  | [] => atEnd { s with input := ⟨[], s.input.ending⟩ }
  | line :: rest =>
      let s := { s with lineNumber := s.lineNumber + 1, input := ⟨rest, s.input.ending⟩ }
      let text := strip line
      match tag? text with
      | none => pullLines s rest
      | some 'c' => pullLines s rest
      | some 'p' => s.fail (.rejected ⟨.secondHeader text, s.here⟩)
      | some _ =>
          let s := { s with phase := .body }
          match scanTokens s.header s.here (fields text) s.unfinished with
          | .clause literals tokens => s.deliver literals tokens
          | .lineEnd literals => pullLines { s with unfinished := literals } rest
          | .fault fault => s.fail fault

/-- The next clause, the end or a fault. -/
def next (s : ClauseStream) : Pulled ClauseStream :=
  if s.finished then (.ok none, s)
  else
    match scanTokens s.header s.here s.tokens s.unfinished with
    | .clause literals tokens => s.deliver literals tokens
    | .lineEnd literals =>
        pullLines { s with tokens := [], unfinished := literals } s.input.lines
    | .fault fault => s.fail fault

/-- The clauses that the header still allows. -/
def remaining (s : ClauseStream) : Nat := s.header.numClauses - s.clausesRead

private theorem fail_ne_clause {s t : ClauseStream} {fault : Fault} {c : Clause} :
    s.fail fault ≠ (.ok (some c), t) := by
  simp [fail]

private theorem deliver_remaining {s t : ClauseStream} {literals c : Clause}
    {rest : List String} (h : s.deliver literals rest = (.ok (some c), t)) :
    t.remaining < s.remaining := by
  unfold deliver at h
  simp only at h
  split at h
  · rename_i hle
    simp only [Prod.mk.injEq, Except.ok.injEq, Option.some.injEq] at h
    rw [← h.2]
    simp only [remaining]
    omega
  · exact absurd h fail_ne_clause

private theorem atEnd_ne_clause {s t : ClauseStream} {c : Clause} :
    s.atEnd ≠ (.ok (some c), t) := by
  unfold atEnd
  split
  · exact fail_ne_clause
  · simp only
    split
    · exact fail_ne_clause
    · split
      · exact fail_ne_clause
      · simp

private theorem pullLines_remaining {s t : ClauseStream} {c : Clause} {lines : List String}
    (h : s.pullLines lines = (.ok (some c), t)) : t.remaining < s.remaining := by
  induction lines generalizing s with
  | nil => exact absurd h atEnd_ne_clause
  | cons line rest ih =>
      unfold pullLines at h
      simp only at h
      split at h
      · simpa only [remaining] using ih h
      · simpa only [remaining] using ih h
      · exact absurd h fail_ne_clause
      · split at h
        · simpa only [remaining] using deliver_remaining h
        · simpa only [remaining] using ih h
        · exact absurd h fail_ne_clause

theorem next_remaining {s t : ClauseStream} {c : Clause} (h : s.next = (.ok (some c), t)) :
    t.remaining < s.remaining := by
  unfold next at h
  split at h
  · simp at h
  · split at h
    · exact deliver_remaining h
    · simpa only [remaining] using pullLines_remaining h
    · exact absurd h fail_ne_clause

instance : ClauseSource ClauseStream where
  pull := next
  weight := remaining
  weight_lt := next_remaining

end ClauseStream

/-- Reads a whole formula. -/
def Formula.read (source : Option String) (input : LineSource) : Except Fault Formula :=
  match (ClauseStream.start source input).1 with
  | .error fault => .error fault
  | .ok stream =>
      let drained := drain stream
      match drained.fault with
      | some fault => .error fault
      | none => .ok ⟨stream.header, drained.clauses⟩

/-- Reads the header and nothing behind it. -/
def Header.read (source : Option String) (input : LineSource) : Except Fault Header :=
  (ClauseStream.start source input).1.map ClauseStream.header

end CnfAudit
