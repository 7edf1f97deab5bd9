import CnfAudit.Proofs.Draining
import CnfAudit.Proofs.Fields

/-!
# Streams as single loops

A stream is read in two nested loops, over lines and over tokens. Here the same text is one list of
pieces, and reading it is one recursion.
-/

namespace CnfAudit

theorem Header.fits (header : Header) {v : Int} (hzero : v ≠ 0)
    (hrange : v.natAbs ≤ header.numVars) : v ≠ 0 ∧ v.natAbs ≤ maxVariable :=
  ⟨hzero, Nat.le_trans hrange header.numVars_le⟩

namespace ClauseStream

open Text

/-- What a stream can meet behind the header: a token, or a line that starts like a header. -/
inductive Piece
  | token (line : Nat) (text : String)
  | header (line : Nat) (text : String)

def linePieces (number : Nat) (line : String) : List Piece :=
  if IsSkipped line then []
  else if tag? (strip line) = some 'p' then [.header number (strip line)]
  else (fields line).map (.token number)

/-- The pieces of some lines; `taken` is the number of the line before them. -/
def piecesFrom (taken : Nat) : List String → List Piece
  | [] => []
  | line :: rest => linePieces (taken + 1) line ++ piecesFrom (taken + 1) rest

/-- A clause and, behind it, some more and a fault. -/
def prepend (c : Clause) (rest : List Clause × Option Fault) : List Clause × Option Fault :=
  (c :: rest.1, rest.2)

section Reading

variable (source : Option String) (ending : Ending) (header : Header)

/-- What is wrong at the end of the input, if anything is. -/
def endFault (unfinished : Clause) (count : Nat) : Option Fault :=
  match ending with
  | .undecodable refusal => some (.undecodable refusal)
  | .complete =>
      if !unfinished.isEmpty then some (.rejected ⟨.unterminatedClause, ⟨source, none⟩⟩)
      else if count ≠ header.numClauses then
        some (.rejected ⟨.clauseCount header.numClauses count, ⟨source, none⟩⟩)
      else none

/-- The clauses of some pieces and the fault behind them. `read` holds the literals of the clause
being read, last first, and `count` is the number of zeros before. -/
def readPieces : List Piece → Clause → Nat → List Clause × Option Fault
  | [], read, count => ([], endFault source ending header read count)
  | .header line text :: _, _, _ =>
      ([], some (.rejected ⟨.secondHeader text, ⟨source, some line⟩⟩))
  | .token line text :: rest, read, count =>
      match readInteger text ⟨source, some line⟩ with
      | .error fault => ([], some fault)
      | .ok value =>
          if hzero : value = 0 then
            if count + 1 ≤ header.numClauses then
              prepend read.reverse (readPieces rest [] (count + 1))
            else
              ([], some (.rejected ⟨.surplusClause header.numClauses, ⟨source, some line⟩⟩))
          else if hrange : value.natAbs ≤ header.numVars then
            let l := Literal.ofNonzero value (header.fits hzero hrange)
            readPieces rest (l :: read) count
          else
            ([], some (.rejected
              ⟨.literalOutOfRange value header.numVars, ⟨source, some line⟩⟩))

private theorem readPieces_tokens (line : Nat) (tokens : List String) (more : List Piece)
    (read : Clause) (count : Nat) :
    readPieces source ending header (tokens.map (.token line) ++ more) read count =
      match scanTokens header ⟨source, some line⟩ tokens read with
      | .clause literals rest =>
          if count + 1 ≤ header.numClauses then
            prepend literals
              (readPieces source ending header (rest.map (.token line) ++ more) [] (count + 1))
          else ([], some (.rejected ⟨.surplusClause header.numClauses, ⟨source, some line⟩⟩))
      | .lineEnd literals => readPieces source ending header more literals count
      | .fault fault => ([], some fault) := by
  induction tokens generalizing read with
  | nil => rfl
  | cons token tokens ih =>
      simp only [List.map_cons, List.cons_append, readPieces, scanTokens]
      cases readInteger token ⟨source, some line⟩ with
      | error fault => rfl
      | ok value =>
          by_cases hzero : value = 0
          · simp only [hzero, dite_true]
          · by_cases hrange : value.natAbs ≤ header.numVars
            · simp only [hzero, hrange, dite_false, dite_true, ih]
            · simp only [hzero, hrange, dite_false]

end Reading

/-- The clauses a stream still has, and the fault behind them, read off its pieces. -/
def outcome (s : ClauseStream) : List Clause × Option Fault :=
  if s.finished then ([], none)
  else
    readPieces s.source s.input.ending s.header
      (s.tokens.map (.token s.lineNumber) ++ piecesFrom s.lineNumber s.input.lines)
      s.unfinished s.clausesRead

/-- What a pull says about the outcome: a clause comes before what the stream then still has. -/
def pulledOutcome : Pulled ClauseStream → List Clause × Option Fault
  | (.error fault, _) => ([], some fault)
  | (.ok none, _) => ([], none)
  | (.ok (some c), t) => prepend c t.outcome

private theorem pulledOutcome_deliver {s : ClauseStream} (hs : s.finished = false)
    (literals : Clause) (rest : List String) :
    pulledOutcome (s.deliver literals rest) =
      if s.clausesRead + 1 ≤ s.header.numClauses then
        prepend literals
          (readPieces s.source s.input.ending s.header
            (rest.map (.token s.lineNumber) ++ piecesFrom s.lineNumber s.input.lines) []
            (s.clausesRead + 1))
      else
        ([], some (.rejected
          ⟨.surplusClause s.header.numClauses, ⟨s.source, some s.lineNumber⟩⟩)) := by
  unfold deliver
  simp only
  split
  · simp [pulledOutcome, outcome, hs]
  · rfl

private theorem pulledOutcome_scan {s : ClauseStream} (hs : s.finished = false)
    (tokens : List String) (resume : Clause → Pulled ClauseStream)
    (hresume : ∀ literals, pulledOutcome (resume literals) =
      readPieces s.source s.input.ending s.header (piecesFrom s.lineNumber s.input.lines)
        literals s.clausesRead) :
    pulledOutcome
        (match scanTokens s.header s.here tokens s.unfinished with
        | .clause literals rest => s.deliver literals rest
        | .lineEnd literals => resume literals
        | .fault fault => s.fail fault) =
      readPieces s.source s.input.ending s.header
        (tokens.map (.token s.lineNumber) ++ piecesFrom s.lineNumber s.input.lines)
        s.unfinished s.clausesRead := by
  rw [readPieces_tokens]
  simp only [here]
  cases scanTokens s.header ⟨s.source, some s.lineNumber⟩ tokens s.unfinished with
  | clause literals rest => exact pulledOutcome_deliver hs literals rest
  | lineEnd literals => exact hresume literals
  | fault fault => rfl

private theorem pulledOutcome_atEnd (s : ClauseStream) :
    pulledOutcome s.atEnd =
      ([], endFault s.source s.input.ending s.header s.unfinished s.clausesRead) := by
  unfold atEnd endFault
  cases s.input.ending with
  | undecodable refusal => rfl
  | complete =>
      simp only
      split
      · rfl
      · split <;> rfl

theorem pullLines_skipped {line : String} (h : IsSkipped line) (s : ClauseStream)
    (rest : List String) :
    s.pullLines (line :: rest) =
      { s with lineNumber := s.lineNumber + 1, input := ⟨rest, s.input.ending⟩ }.pullLines
        rest := by
  rcases h with h | h <;> simp only [pullLines, h]

theorem pullLines_header {line : String} (h : tag? (strip line) = some 'p')
    (s : ClauseStream) (rest : List String) :
    s.pullLines (line :: rest) =
      let t := { s with lineNumber := s.lineNumber + 1, input := ⟨rest, s.input.ending⟩ }
      t.fail (.rejected ⟨.secondHeader (strip line), t.here⟩) := by
  simp only [pullLines, h]

theorem pullLines_tokens {line : String} (hskip : ¬IsSkipped line)
    (hheader : tag? (strip line) ≠ some 'p') (s : ClauseStream) (rest : List String) :
    s.pullLines (line :: rest) =
      let t := { s with
        lineNumber := s.lineNumber + 1
        input := ⟨rest, s.input.ending⟩
        phase := .body }
      match scanTokens t.header t.here (fields line) t.unfinished with
      | .clause literals tokens => t.deliver literals tokens
      | .lineEnd literals => { t with unfinished := literals }.pullLines rest
      | .fault fault => t.fail fault := by
  rw [pullLines]
  simp only [fields_strip]
  split
  · rename_i h
    exact absurd (.inl h) hskip
  · rename_i h
    exact absurd (.inr h) hskip
  · rename_i h
    exact absurd h hheader
  · rfl

private theorem pulledOutcome_pullLines {s : ClauseStream} (hs : s.finished = false)
    (lines : List String) :
    pulledOutcome (s.pullLines lines) =
      readPieces s.source s.input.ending s.header (piecesFrom s.lineNumber lines)
        s.unfinished s.clausesRead := by
  induction lines generalizing s with
  | nil => exact pulledOutcome_atEnd _
  | cons line rest ih =>
      rw [piecesFrom, linePieces]
      by_cases hskip : IsSkipped line
      · rw [if_pos hskip, pullLines_skipped hskip, List.nil_append]
        apply ih
        exact hs
      · rw [if_neg hskip]
        by_cases hheader : tag? (strip line) = some 'p'
        · rw [if_pos hheader, pullLines_header hheader]
          rfl
        · rw [if_neg hheader, pullLines_tokens hskip hheader]
          apply pulledOutcome_scan
          · exact hs
          · intro literals
            apply ih
            exact hs

private theorem pulledOutcome_next (s : ClauseStream) : pulledOutcome s.next = s.outcome := by
  unfold next outcome
  cases hs : s.finished with
  | true => rfl
  | false =>
      rw [if_neg (by simp), if_neg (by simp)]
      apply pulledOutcome_scan hs
      intro literals
      apply pulledOutcome_pullLines
      rfl

/-- Draining a stream gives what its pieces say. -/
theorem drain_eq_outcome (s : ClauseStream) :
    (drain s).clauses = s.outcome.1 ∧ (drain s).fault = s.outcome.2 := by
  induction s using ClauseSource.induction with
  | failed s fault t h =>
      have houtcome := pulledOutcome_next s
      rw [show s.next = _ from h] at houtcome
      rw [← houtcome, drain_of_fault h]
      exact ⟨rfl, rfl⟩
  | ended s t h =>
      have houtcome := pulledOutcome_next s
      rw [show s.next = _ from h] at houtcome
      rw [← houtcome, drain_of_end h]
      exact ⟨rfl, rfl⟩
  | pulled s c t h ih =>
      have houtcome := pulledOutcome_next s
      rw [show s.next = _ from h] at houtcome
      rw [← houtcome, drain_of_clause h, ih.1, ih.2]
      exact ⟨rfl, rfl⟩

end ClauseStream

end CnfAudit
